import OutOfOrder.Program

/-!
# Program records

A program is written as a list of records. A record gives its operation by mnemonic or by opcode
word, may name its tag, and may fill its operands. A record without a tag takes the tag after that
of the record before it. A tag may come back only after `window` records: otherwise its two holders
could be in flight at once, and their ages would not be told apart.
-/

namespace OutOfOrder

/-! ## What a record says -/

inductive WrittenOpcode
  | word (w : UInt32)
  | mnemonic (name : String)
deriving DecidableEq

inductive WrittenOperand
  | value (v : Int32)
  | wait (tag : Nat)
deriving DecidableEq

structure Record where
  opcode : WrittenOpcode
  tag : Option Nat
  operands : Operands (Option WrittenOperand)
deriving DecidableEq

/-! ## What can be wrong with one -/

inductive RecordFault
  | unknownMnemonic (name : String)
  | badOpcode (opcode : Opcode)
  | duplicateTag (tag previous : Nat)
  | tagOutOfRange (tag bits : Nat)
deriving DecidableEq

def RecordFault.message : RecordFault → String
  | unknownMnemonic name => s!"unknown mnemonic '{name}'"
  | badOpcode opcode => s!"opcode {opcode.text} is not recognized"
  | duplicateTag tag previous => s!"tag {tag} is already used by instruction {previous}"
  | tagOutOfRange tag bits => s!"tag {tag} does not fit in {bits} bits"

structure RecordError where
  index : Nat
  fault : RecordFault
deriving DecidableEq

def RecordError.message (e : RecordError) : String := s!"instruction {e.index}: {e.fault.message}"

/-! ## From a record to an instruction -/

def TagSpace.checked (s : TagSpace) (n : Nat) : Except RecordFault Tag :=
  if s.contains n then .ok (s.tag n) else .error (.tagOutOfRange n s.bits)

def WrittenOpcode.resolve : WrittenOpcode → Except RecordFault Opcode
  | word w => if (Opcode.mk w).decode.isSome then .ok ⟨w⟩ else .error (.badOpcode ⟨w⟩)
  | mnemonic name =>
    match Operation.ofMnemonic? name with
    | some operation => .ok (.encode operation)
    | none => .error (.unknownMnemonic name)

/-- An operand that is not given is the value 0. -/
def WrittenOperand.resolve (s : TagSpace) : Option WrittenOperand → Except RecordFault Operand
  | none => .ok (.ready 0)
  | some (value v) => .ok (.ready v)
  | some (wait n) => (s.checked n).map .waitingOn

/-! ## What is kept from record to record -/

/-- The latest record that has used each tag. -/
structure LastUses where
  places : List (Tag × Nat)

namespace LastUses

def empty : LastUses := ⟨[]⟩

def get? (u : LastUses) (t : Tag) : Option Nat := u.places.lookup t

/-- Puts a use of a tag in the place of the one before it. -/
def insert (u : LastUses) (t : Tag) (place : Nat) : LastUses :=
  ⟨(t, place) :: u.places.filter (·.1 != t)⟩

@[simp] theorem get?_insert (u : LastUses) (t v : Tag) (place : Nat) :
    (u.insert t place).get? v = if v = t then some place else u.get? v := by
  obtain ⟨l⟩ := u
  induction l with
  | nil => grind [insert, get?]
  | cons x l ih =>
    obtain ⟨w, m⟩ := x
    simp only [insert, get?] at ih ⊢
    grind

end LastUses

/-- Where tags go on, and which of them were used where. -/
structure Loader where
  tags : TagAllocator
  lastUse : LastUses

def Loader.start (s : TagSpace) : Loader := ⟨.new s, .empty⟩

/-- The tag of a record. After one that is given, tags go on from there. -/
def Loader.takeTag (s : TagSpace) (l : Loader) : Option Nat → Except RecordFault (Tag × Loader)
  | some n => (s.checked n).map fun t => (t, { l with tags := .startingAt s (n + 1) })
  | none =>
    let (t, tags) := l.tags.allocate
    .ok (t, { l with tags })

/-- Uses a tag for record `index`, unless its latest holder is fewer than `window` records back. -/
def Loader.useTag (s : TagSpace) (index : Nat) (l : Loader) (t : Tag) :
    Except RecordFault Loader :=
  match (l.lastUse.get? t).filter fun previous => index - previous < s.window with
  | some previous => .error (.duplicateTag t.index previous)
  | none => .ok { l with lastUse := l.lastUse.insert t index }

/-- The instruction of record `index`, and what is kept for the next one. -/
def Record.resolve (s : TagSpace) (index : Nat) (l : Loader) (r : Record) :
    Except RecordFault (Instruction × Loader) := do
  let opcode ← r.opcode.resolve
  let (tag, l) ← l.takeTag s r.tag
  let l ← l.useTag s index tag
  let a ← WrittenOperand.resolve s r.operands.a
  let b ← WrittenOperand.resolve s r.operands.b
  let f ← WrittenOperand.resolve s r.operands.f
  return (⟨opcode, tag, ⟨a, b, f⟩⟩, l)

/-! ## From records to a program -/

namespace Program

/-- The instructions of the records from number `index` on. -/
def ofRecordsFrom (s : TagSpace) (index : Nat) (l : Loader) :
    List Record → Except RecordError Program
  | [] => .ok []
  | r :: rest => do
    let (i, l) ← (r.resolve s index l).mapError fun fault => ⟨index, fault⟩
    let is ← ofRecordsFrom s (index + 1) l rest
    return i :: is

/-- The program that the records say, or what is wrong with the first bad one. -/
def ofRecords (s : TagSpace) (records : List Record) : Except RecordError Program :=
  ofRecordsFrom s 0 (.start s) records

end Program

end OutOfOrder
