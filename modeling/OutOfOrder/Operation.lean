import OutOfOrder.Operand

/-!
# Operations

What the execution units can do: seven operations of the arithmetic unit, and branches that test
the flags. Each arithmetic operation has a mnemonic, and so have five branch conditions. All other
branches are shown as `b`, which is not read.
-/

namespace OutOfOrder

/-! ## Arithmetic and logic -/

inductive AluOp
  | add
  | sub
  | and
  | or
  | nor
  | not
  | xor
deriving DecidableEq

namespace AluOp

def all : List AluOp := [add, sub, and, or, nor, not, xor]

def mnemonic : AluOp → String
  | add => "add"
  | sub => "sub"
  | and => "and"
  | or => "or"
  | nor => "nor"
  | not => "not"
  | xor => "xor"

/-- The sign between (or before) the operands when an issued instruction is shown. -/
def symbol : AluOp → String
  | add => "+"
  | sub => "-"
  | and => "&"
  | or => "|"
  | nor => "nor"
  | not => "~"
  | xor => "^"

theorem mem_all (op : AluOp) : op ∈ all := by cases op <;> decide

end AluOp

/-! ## Branches -/

/-- The flag that an addition leaves behind when it carries out of the word. -/
def carryFlag : Int32 := 1

/-- The flag that a subtraction leaves behind when it borrows. -/
def borrowFlag : Int32 := 2

/-- A branch is taken when some flag under the mask is set, or, inverted, when none is. -/
structure BranchCondition where
  mask : Int32
  invert : Bool
deriving DecidableEq

namespace BranchCondition

def always : BranchCondition := ⟨0, true⟩

def taken (c : BranchCondition) (flags : Int32) : Bool := (flags &&& c.mask != 0) != c.invert

/-- A condition without a name of its own is shown as a plain branch. -/
def mnemonic (c : BranchCondition) : String :=
  if c = always then "br"
  else if c = ⟨carryFlag, false⟩ then "bcs"
  else if c = ⟨carryFlag, true⟩ then "bcc"
  else if c = ⟨borrowFlag, false⟩ then "bbs"
  else if c = ⟨borrowFlag, true⟩ then "bbc"
  else "b"

end BranchCondition

/-! ## Both -/

inductive Operation
  | alu (op : AluOp)
  | branch (condition : BranchCondition)
deriving DecidableEq

namespace Operation

def mnemonic : Operation → String
  | alu op => op.mnemonic
  | branch c => c.mnemonic

/-- Reads a mnemonic in any mixture of ASCII letter cases. -/
def ofMnemonic? (name : String) : Option Operation :=
  let lower := name.toLower
  match AluOp.all.find? (·.mnemonic == lower) with
  | some op => some (alu op)
  | none =>
    match lower with
    | "br" => some (branch .always)
    | "bcs" => some (branch ⟨carryFlag, false⟩)
    | "bcc" => some (branch ⟨carryFlag, true⟩)
    | "bbs" => some (branch ⟨borrowFlag, false⟩)
    | "bbc" => some (branch ⟨borrowFlag, true⟩)
    | _ => none

end Operation

end OutOfOrder
