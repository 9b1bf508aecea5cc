import OutOfOrder.Operation

/-!
# The arithmetic unit

Words are 32 bits wide. An addition reads its operands as unsigned numbers to find the carry; a
subtraction reads them as signed ones to find the borrow. Logic leaves no flags.
-/

namespace OutOfOrder

def AluOp.execute (op : AluOp) (a b : Int32) : Outcome :=
  match op with
  | add => ⟨a + b, if UInt32.size ≤ a.toUInt32.toNat + b.toUInt32.toNat then carryFlag else 0⟩
  | sub => ⟨a - b, if a.toInt < b.toInt then borrowFlag else 0⟩
  | and => ⟨a &&& b, 0⟩
  | or => ⟨a ||| b, 0⟩
  | nor => ⟨~~~(a ||| b), 0⟩
  | not => ⟨~~~a, 0⟩
  | xor => ⟨a ^^^ b, 0⟩

end OutOfOrder
