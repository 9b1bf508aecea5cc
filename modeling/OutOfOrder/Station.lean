import OutOfOrder.Instruction

/-!
# The reservation station

Instructions wait in the slots of the station for their operands, in no particular order. A new one
goes to the lowest free slot. Each result is offered to all occupied slots, and the oldest entry
whose operands are all there leaves first. A slot that is freed keeps its contents until it is
filled again.
-/

namespace OutOfOrder

namespace Station

structure Entry where
  occupied : Bool
  opcode : Opcode
  tag : Tag
  operands : Operands Operand
deriving DecidableEq, Inhabited

namespace Entry

def ofInstruction (i : Instruction) : Entry := ⟨true, i.opcode, i.tag, i.operands⟩

def ready (e : Entry) : Bool := e.occupied && e.operands.ready

def request (e : Entry) : Request := ⟨e.tag, e.opcode, e.operands.values⟩

/-- Offers a result to the slots of an entry and counts those that take it. -/
def wake (e : Entry) (r : Result) : Entry × Nat :=
  if e.occupied then
    let (operands, taken) := e.operands.resolve r.tag r.outcome
    ({ e with operands := operands }, taken)
  else (e, 0)

def text (e : Entry) : String :=
  if e.occupied then
    s!"{e.tag.text} := {e.opcode.text} a={e.operands.a.text} b={e.operands.b.text} " ++
      s!"f={e.operands.f.text}" ++ if e.ready then " ready" else ""
  else "free"

end Entry

end Station

/-- `occupied` is kept beside the slots so that fullness is known without a search. -/
structure Station where
  tags : TagSpace
  slots : List Station.Entry
  occupied : Nat
deriving DecidableEq

namespace Station

def empty (tags : TagSpace) (capacity : Nat) : Station :=
  ⟨tags, List.replicate capacity default, 0⟩

def capacity (s : Station) : Nat := s.slots.length

def isEmpty (s : Station) : Bool := s.occupied == 0

def isFull (s : Station) : Bool := s.occupied == s.capacity

/-- The occupied slots in slot order. -/
def live (s : Station) : List Entry := s.slots.filter (·.occupied)

/-- Puts an instruction into the lowest free slot, if there is one, and tells whether it did. -/
def push (s : Station) (i : Instruction) : Station × Bool :=
  match s.slots.findIdx? (!·.occupied) with
  | none => (s, false)
  | some n =>
    ({ s with slots := s.slots.set n (.ofInstruction i), occupied := s.occupied + 1 }, true)

/-! ## Issue -/

/-- The oldest ready entry with its slot number. A later slot wins only with an older tag. -/
def oldestReady (s : Station) : Option (Entry × Nat) :=
  match s.slots.zipIdx.filter (·.1.ready) with
  | [] => none
  | first :: rest =>
    some (rest.foldl (fun best e => if s.tags.older e.1.tag best.1.tag then e else best) first)

def peek (s : Station) : Option Entry := s.oldestReady.map (·.1)

/-- Takes the oldest ready entry out and frees its slot. -/
def issue (s : Station) : Option (Request × Station) :=
  s.oldestReady.map fun (e, n) =>
    (e.request,
      { s with slots := s.slots.set n { e with occupied := false }, occupied := s.occupied - 1 })

/-! ## Results -/

/-- Offers a result to every entry and counts the operand slots that take it. -/
def wake (s : Station) (r : Result) : Station × Nat :=
  let woken := s.slots.map (·.wake r)
  ({ s with slots := woken.map (·.1) }, woken.foldl (fun taken e => taken + e.2) 0)

def text (s : Station) : String :=
  Text.lines (s.slots.zipIdx.map fun (e, n) => s!"rs[{n}] {e.text}")

end Station

end OutOfOrder
