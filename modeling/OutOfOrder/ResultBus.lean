import OutOfOrder.ReorderBuffer
import OutOfOrder.Station

/-!
# The result bus

One latch between the execution units and everything that waits for results. What is latched in one
cycle is broadcast in the next: the station takes it for waiting operands and the reorder buffer
for the entry that carries the tag.
-/

namespace OutOfOrder

/-- A broadcast, carried out: both structures afterwards, and what each of them did with it. -/
structure Broadcast where
  station : Station
  buffer : ReorderBuffer
  resolved : Nat
  completed : Bool

def broadcast (r : Result) (s : Station) (b : ReorderBuffer) : Broadcast :=
  let (station, resolved) := s.wake r
  let (buffer, completed) := b.complete r
  ⟨station, buffer, resolved, completed⟩

structure ResultBus where
  pending : Option Result
deriving DecidableEq

namespace ResultBus

def idle : ResultBus := ⟨none⟩

def isFree (bus : ResultBus) : Bool := bus.pending.isNone

/-- A result is latched only while the bus is free; tells whether it was. -/
def latch (bus : ResultBus) (r : Result) : ResultBus × Bool :=
  if bus.isFree then (⟨some r⟩, true) else (bus, false)

/-- Broadcasts the latched result, if any. The bus is idle afterwards. -/
def drive (bus : ResultBus) (s : Station) (b : ReorderBuffer) : Option (Result × Broadcast) :=
  bus.pending.map fun r => (r, broadcast r s b)

def text (bus : ResultBus) : String :=
  match bus.pending with
  | some r => s!"cdb {r.tag.text} value={r.outcome.value.toInt} flags={r.outcome.flags.toInt}"
  | none => "cdb idle"

end ResultBus

end OutOfOrder
