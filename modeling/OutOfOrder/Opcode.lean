import OutOfOrder.Operation
import OutOfOrder.Text.Layout

/-!
# Opcode words

The top byte of an opcode word tells its class. The rest of the word matters to branches alone:
the low byte is the flag mask and bit 8 inverts the condition.
-/

namespace OutOfOrder

structure Opcode where
  word : UInt32
deriving DecidableEq, Inhabited

namespace Opcode

def classMask : UInt32 := 0xFF000000

def branchClass : UInt32 := 0x0F000000

def branchMask : UInt32 := 0xFF

def branchInvert : UInt32 := 0x100

end Opcode

def AluOp.classWord : AluOp → UInt32
  | add => 0x06000000
  | sub => 0x07000000
  | and => 0x0A000000
  | or => 0x0B000000
  | nor => 0x0C000000
  | not => 0x0D000000
  | xor => 0x0E000000

namespace Opcode

def classWord (o : Opcode) : UInt32 := o.word &&& classMask

/-- The condition in the low bits of a branch word. -/
def condition (o : Opcode) : BranchCondition :=
  ⟨(o.word &&& branchMask).toInt32, o.word &&& branchInvert != 0⟩

def decode (o : Opcode) : Option Operation :=
  if o.classWord = branchClass then some (.branch o.condition)
  else (AluOp.all.find? (·.classWord == o.classWord)).map .alu

/-- The word of an operation. A branch keeps the low byte of its mask. -/
def encode : Operation → Opcode
  | .alu op => ⟨op.classWord⟩
  | .branch c =>
    ⟨branchClass ||| (c.mask.toUInt32 &&& branchMask) ||| if c.invert then branchInvert else 0⟩

def text (o : Opcode) : String := Text.hex 8 o.word.toNat

end Opcode

end OutOfOrder
