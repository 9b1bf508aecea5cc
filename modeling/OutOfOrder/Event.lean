import OutOfOrder.Branch
import OutOfOrder.Core.Report
import OutOfOrder.Disassembly
import OutOfOrder.ResultBus

/-!
# Events

What a core tells an observer while it works, in the order in which it happens. An event carries
the things it speaks of; its level, message and named fields are read off them.
-/

namespace OutOfOrder

inductive Event
  | woken (tag : Tag) (slots : Nat)
  | broadcast (result : Result) (resolved : Nat) (completed : Bool)
  | retireStalled (tag : Tag)
  | retired (entry : ReorderBuffer.Entry)
  | issued (request : Request)
  | branchResolved (tag : Tag) (outcome : BranchOutcome)
  | dispatchStalled (tag : Tag) (stall : Stall)
  | dispatched (instruction : Instruction)
  | snapshot (cycle : Nat) (station : Station) (bus : ResultBus)
  | finished (cycles entries : Nat)
deriving DecidableEq

namespace Event

inductive Level
  | trace
  | debug
  | info
deriving DecidableEq

def Level.text : Level → String
  | trace => "TRACE"
  | debug => "DEBUG"
  | info => "INFO"

inductive Field
  | text (s : String)
  | number (n : Int)
  | flag (b : Bool)

def level : Event → Level
  | woken .. | retireStalled .. | dispatchStalled .. => .trace
  | finished .. => .info
  | _ => .debug

def message : Event → String
  | woken .. => "rs broadcast"
  | broadcast .. => "cdb broadcast"
  | retireStalled .. => "retire stalled on waiting tail"
  | retired .. => "retire"
  | issued .. => "issue"
  | branchResolved .. => "branch resolved"
  | dispatchStalled _ stall => s!"dispatch stalled: {stall.text}"
  | dispatched .. => "dispatch"
  | snapshot _ station bus => "\n" ++ station.text ++ bus.text
  | finished .. => "simulation finished"

def fields : Event → List (String × Field)
  | woken tag slots => [("tag", .text tag.text), ("woken", .number slots)]
  | broadcast r resolved completed =>
    [("tag", .text r.tag.text), ("value", .number r.outcome.value.toInt),
      ("flags", .number r.outcome.flags.toInt), ("slots_resolved", .number resolved),
      ("rob_completed", .flag completed)]
  | retireStalled tag => [("tag", .text tag.text)]
  | retired e =>
    [("tag", .text e.tag.text), ("value", .number e.outcome.value.toInt),
      ("flags", .number e.outcome.flags.toInt)]
  | issued r => [("tag", .text r.tag.text), ("op", .text r.text)]
  | branchResolved tag o =>
    [("tag", .text tag.text), ("predicted", .flag o.predicted), ("taken", .flag o.taken)]
  | dispatchStalled tag _ => [("tag", .text tag.text)]
  | dispatched i => [("tag", .text i.tag.text), ("inst", .text i.text)]
  | snapshot cycle _ _ => [("cycle", .number cycle)]
  | finished cycles entries => [("cycles", .number cycles), ("retired", .number entries)]

end Event

/-! ## Events of single operations -/

/-- Offering a result to the station. -/
def Station.wakeEvents (s : Station) (r : Result) : List Event := [.woken r.tag (s.wake r).2]

/-- Trying to retire from the buffer. -/
def ReorderBuffer.retireEvents (b : ReorderBuffer) : List Event :=
  match b.oldest? with
  | some e => if e.waiting then [.retireStalled e.tag] else []
  | none => []

def Broadcast.events (b : Broadcast) (r : Result) : List Event :=
  [.woken r.tag b.resolved, .broadcast r b.resolved b.completed]

end OutOfOrder
