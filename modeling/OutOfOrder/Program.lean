import OutOfOrder.Instruction

/-!
# Programs

A program is the list of instructions that a core is fed, in order. Nothing ties it to a tag space;
`Program.ofRecords` builds programs that keep to one.
-/

namespace OutOfOrder

abbrev Program := List Instruction

/-- An instruction for an operation, with operands as given. -/
def Instruction.of (operation : Operation) (tag : Nat) (a b f : Operand) : Instruction :=
  ⟨.encode operation, ⟨UInt16.ofNat tag⟩, ⟨a, b, f⟩⟩

/-- Three instructions in a chain: each subtraction waits for the flags of the one before it. -/
def Program.demo : Program :=
  [.of (.alu .add) 0 (.ready 5) (.ready 3) (.ready 0),
    .of (.alu .sub) 1 (.ready 7) (.ready 4) (.waitingOn ⟨0⟩),
    .of (.alu .sub) 2 (.ready 11) (.ready 5) (.waitingOn ⟨1⟩)]

end OutOfOrder
