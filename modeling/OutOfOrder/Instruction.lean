import OutOfOrder.Opcode

/-!
# Instructions on their way through the core

An `Instruction` is what enters the core, a `Request` is what an execution unit is given once the
operands are there, and a `Result` is what the unit sends back.
-/

namespace OutOfOrder

structure Instruction where
  opcode : Opcode
  tag : Tag
  operands : Operands Operand
deriving DecidableEq

def Instruction.ready (i : Instruction) : Bool := i.operands.ready

structure Request where
  tag : Tag
  opcode : Opcode
  operands : Operands Int32
deriving DecidableEq

structure Result where
  tag : Tag
  outcome : Outcome
deriving DecidableEq

end OutOfOrder
