import OutOfOrder.Core

/-!
# Dispatch

A dispatched instruction takes a slot of the station and a place in the reorder buffer at once, or
neither. Its waiting operands are resolved first from the instructions still in the buffer and then
from the committed results; only then does it take over its own tag, so an instruction may read
what its tag stood for before.
-/

namespace OutOfOrder

/-- Where a waiting operand finds an outcome at dispatch. -/
inductive Supply
  | forwarded (outcome : Outcome)
  | committed (outcome : Outcome)
deriving DecidableEq

namespace Supply

def outcome : Supply → Outcome
  | forwarded o | committed o => o

def isForwarded : Supply → Bool
  | forwarded _ => true
  | committed _ => false

def isCommitted : Supply → Bool
  | forwarded _ => false
  | committed _ => true

end Supply

namespace Core

def supply? (c : Core) (t : Tag) : Option Supply :=
  match c.buffer.lookup t with
  | some o => some (.forwarded o)
  | none => (c.committed.lookup t).map .committed

/-- An operand as it is installed, and where its value came from if dispatch found it. -/
def resolve (c : Core) (k : Input) (slot : Operand) : Operand × Option Supply :=
  if slot.waiting then
    match c.supply? slot.tag with
    | some s => ((slot.resolve slot.tag (s.outcome.read k)).1, some s)
    | none => (slot, none)
  else (slot, none)

/-- The instruction with the operands that dispatch gives it. -/
def resolved (c : Core) (i : Instruction) : Instruction :=
  { i with operands := i.operands.map fun k slot => (c.resolve k slot).1 }

/-- The supplies that dispatch finds for the operands of an instruction. -/
def supplies (c : Core) (i : Instruction) : List Supply :=
  (i.operands.map fun k slot => (c.resolve k slot).2).toList.filterMap id

/-- Installs an instruction for which there is room. -/
def install (c : Core) (i : Instruction) : Core :=
  { c with
    station := (c.station.push (c.resolved i)).1
    buffer := (c.buffer.push i.opcode i.tag).1
    committed := c.committed.reclaim i.tag
    stats :=
      { c.stats with
        dispatched := c.stats.dispatched + 1
        forwarded := c.stats.forwarded + (c.supplies i).countP (·.isForwarded)
        committed := c.stats.committed + (c.supplies i).countP (·.isCommitted) } }

/-- Installs an instruction, or tells why it has to be held back or cannot be executed at all. -/
def dispatch (c : Core) (i : Instruction) : After (Except CoreError (Option Stall)) :=
  if i.opcode.decode.isNone then ⟨c, .error (.unrecognizedOpcode i.tag i.opcode), []⟩
  else if c.station.isFull then
    ⟨{ c with stats := { c.stats with stationStalls := c.stats.stationStalls + 1 } },
      .ok (some .stationFull), [.dispatchStalled i.tag .stationFull]⟩
  else if c.buffer.isFull then
    ⟨{ c with stats := { c.stats with bufferStalls := c.stats.bufferStalls + 1 } },
      .ok (some .bufferFull), [.dispatchStalled i.tag .bufferFull]⟩
  else ⟨c.install i, .ok none, [.dispatched (c.resolved i)]⟩

end Core

end OutOfOrder
