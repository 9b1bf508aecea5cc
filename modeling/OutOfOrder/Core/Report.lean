import OutOfOrder.Instruction

/-!
# What a core reports

Why an instruction is held back, why it is refused, and what happened in one cycle.
-/

namespace OutOfOrder

inductive Stall
  | stationFull
  | bufferFull
deriving DecidableEq

def Stall.text : Stall → String
  | stationFull => "rs full"
  | bufferFull => "rob full"

inductive CoreError
  | unrecognizedOpcode (tag : Tag) (opcode : Opcode)
deriving DecidableEq

def CoreError.message : CoreError → String
  | unrecognizedOpcode tag opcode =>
    s!"unrecognized opcode {opcode.text} for instruction {tag.text}"

/-- The tags that moved in a cycle, and why the latched instruction was held back. -/
structure CycleReport where
  cycle : Nat
  broadcast : Option Tag
  retired : Option Tag
  issued : Option Tag
  dispatched : Option Tag
  stall : Option Stall
deriving DecidableEq

def CycleReport.text (r : CycleReport) : String :=
  let column (t : Option Tag) := Text.padRight 5 ((t.map Tag.text).getD "-")
  let stall := (r.stall.map fun s => s!" ({s.text})").getD ""
  s!"cycle {Text.padLeft 4 (toString r.cycle)}: broadcast {column r.broadcast} " ++
    s!"retire {column r.retired} issue {column r.issued} " ++
      s!"dispatch {column r.dispatched}{stall}"

end OutOfOrder
