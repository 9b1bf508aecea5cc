import OutOfOrder.Committed
import OutOfOrder.Config
import OutOfOrder.Event
import OutOfOrder.Stats

/-!
# The core

All that a core holds between two cycles. An instruction comes into the fetch latch, is dispatched
into the reservation station and the reorder buffer together, leaves the station when it is issued,
and leaves the buffer when it retires; from then on its outcome stands among the committed results
until its tag is used again.
-/

namespace OutOfOrder

structure Core where
  station : Station
  buffer : ReorderBuffer
  bus : ResultBus
  committed : Committed
  predictor : Counter
  latch : Option Instruction
  tracing : Bool
  stats : Stats

namespace Core

def ofConfig (config : Config) : Except ConfigError Core :=
  match config.validate with
  | .error e => .error e
  | .ok () =>
    match config.tagSpace, Counter.ofState config.predictorState with
    | .ok tags, .ok predictor =>
      .ok
        { station := .empty tags config.stationEntries
          buffer := .empty config.bufferEntries
          bus := .idle
          committed := .empty
          predictor
          latch := none
          tracing := config.tracing
          stats := {} }
    | .error e, _ | .ok _, .error e => .error e

def tags (c : Core) : TagSpace := c.station.tags

/-- No instruction is on its way. -/
def isDrained (c : Core) : Bool :=
  c.latch.isNone && c.station.isEmpty && c.buffer.isEmpty && c.bus.isFree

/-- What is left when the core has done one part of its work: the core, the answer of that part,
and the events on the way. -/
structure After (α : Type) where
  core : Core
  answer : α
  events : List Event

end Core

end OutOfOrder
