import OutOfOrder.Instruction

/-!
# Disassembly

An instruction is shown as a line of words with one blank between them. Its tag stands in front of
the operands that the operation reads: `a` alone for `not`, `a` and `b` for the other arithmetic
operations, `f` for a branch. An arithmetic operation that waits for flags it does not read says
so at the end. An issued request shows its values in a formula instead.
-/

namespace OutOfOrder

def Instruction.words (i : Instruction) : List String :=
  let a := i.operands.a.text
  let b := i.operands.b.text
  let f := i.operands.f.text
  let pending := if i.operands.f.waiting then ["?", f] else []
  match i.opcode.decode with
  | none => ["unknown", i.opcode.text, i.tag.text]
  | some (.alu .not) => [AluOp.not.mnemonic, i.tag.text, "<-", a] ++ pending
  | some (.alu op) => [op.mnemonic, i.tag.text, "<-", a ++ ",", b] ++ pending
  | some (.branch c) => [c.mnemonic, i.tag.text, "?", f]

def Instruction.text (i : Instruction) : String := " ".intercalate i.words

def Request.words (r : Request) : List String :=
  let a := toString r.operands.a.toInt
  let b := toString r.operands.b.toInt
  [r.tag.text, "<-"] ++
    match r.opcode.decode with
    | none => ["unknown", r.opcode.text]
    | some (.alu .not) => ["~" ++ a]
    | some (.alu .nor) => ["~(" ++ a, "|", b ++ ")"]
    | some (.alu op) => [a, op.symbol, b]
    | some (.branch c) => [c.mnemonic, "flags=" ++ Text.hex 1 r.operands.f.toUInt32.toNat]

def Request.text (r : Request) : String := " ".intercalate r.words

end OutOfOrder
