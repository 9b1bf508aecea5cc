import OutOfOrder.Tag

/-!
# Operands

An operand slot holds its value or waits for the result that carries a tag. An instruction has
three of them: `a` and `b` take a producer's value, `f` takes its flags. `Operands` keeps the
three together, and `Input` names them, so that what happens to every slot is written once.
-/

namespace OutOfOrder

/-- What an instruction computes. -/
structure Outcome where
  value : Int32
  flags : Int32
deriving DecidableEq, Inhabited

/-- A slot keeps the tag it waited on after its value came; one that never waited has tag 0, and
one that still waits has value 0. -/
structure Operand where
  waiting : Bool
  tag : Tag
  value : Int32
deriving DecidableEq, Inhabited

namespace Operand

def ready (value : Int32) : Operand := ⟨false, ⟨0⟩, value⟩

def waitingOn (tag : Tag) : Operand := ⟨true, tag, 0⟩

def waitsOn (o : Operand) (t : Tag) : Bool := o.waiting && o.tag == t

/-- The slot after the value of `t` is offered to it, and whether it took the value. -/
def resolve (o : Operand) (t : Tag) (value : Int32) : Operand × Bool :=
  if o.waitsOn t then ({ o with waiting := false, value := value }, true) else (o, false)

def value? (o : Operand) : Option Int32 := if o.waiting then none else some o.value

def text (o : Operand) : String :=
  if o.waiting then "wait" ++ o.tag.text else toString o.value.toInt

end Operand

/-! ## The three inputs -/

inductive Input
  | a
  | b
  | f
deriving DecidableEq

/-- What an input takes of a producer's outcome. -/
def Outcome.read (o : Outcome) : Input → Int32
  | .a | .b => o.value
  | .f => o.flags

theorem Outcome.read_eq (o : Outcome) (k : Input) :
    o.read k = if k = .f then o.flags else o.value := by
  cases k <;> rfl

structure Operands (α : Type) where
  a : α
  b : α
  f : α
deriving DecidableEq, Inhabited

namespace Operands

variable {α β : Type}

def get (o : Operands α) : Input → α
  | .a => o.a
  | .b => o.b
  | .f => o.f

def toList (o : Operands α) : List α := [o.a, o.b, o.f]

def map (g : Input → α → β) (o : Operands α) : Operands β := ⟨g .a o.a, g .b o.b, g .f o.f⟩

@[simp] theorem get_map (g : Input → α → β) (o : Operands α) (k : Input) :
    (o.map g).get k = g k (o.get k) := by
  cases k <;> rfl

@[ext] theorem ext {x y : Operands α} (h : ∀ k, x.get k = y.get k) : x = y := by
  cases x; cases y
  simpa [get] using And.intro (h .a) (And.intro (h .b) (h .f))

/-- No slot waits. -/
def ready (o : Operands Operand) : Bool := o.toList.all (!·.waiting)

/-- Offers an outcome to every slot, each input taking its part, and counts the takers. -/
def resolve (o : Operands Operand) (t : Tag) (outcome : Outcome) : Operands Operand × Nat :=
  let offered := o.map fun k slot => slot.resolve t (outcome.read k)
  (offered.map fun _ r => r.1, offered.toList.countP (·.2))

def values (o : Operands Operand) : Operands Int32 := o.map fun _ slot => slot.value

end Operands

end OutOfOrder
