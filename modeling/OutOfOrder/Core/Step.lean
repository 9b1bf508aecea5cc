import OutOfOrder.Alu
import OutOfOrder.Core.Dispatch

/-!
# One cycle

A cycle has four phases, in this order: the latched result is broadcast, the oldest instruction
retires if it is complete, the oldest ready instruction is issued and its result latched, and an
instruction is dispatched from the fetch latch. So a result is broadcast in the cycle after its
issue, and a retired place can be filled again in the same cycle.
-/

namespace OutOfOrder

namespace Core

/-! ## Broadcast -/

def deliver (c : Core) : After (Option Tag) :=
  match c.bus.drive c.station c.buffer with
  | none => ⟨c, none, []⟩
  | some (r, b) =>
    ⟨{ c with
        station := b.station
        buffer := b.buffer
        bus := .idle
        stats :=
          { c.stats with
            broadcasts := c.stats.broadcasts + 1
            woken := c.stats.woken + b.resolved } },
      some r.tag, b.events r⟩

/-! ## Retirement -/

def retire (c : Core) : After (Option ReorderBuffer.Entry) :=
  match c.buffer.retire with
  | some (e, buffer) =>
    ⟨{ c with
        buffer
        committed := c.committed.commit e.tag e.outcome
        stats := { c.stats with retired := c.stats.retired + 1 } },
      some e, [.retired e]⟩
  | none =>
    if c.buffer.isEmpty then ⟨c, none, []⟩
    else
      ⟨{ c with stats := { c.stats with retireStalls := c.stats.retireStalls + 1 } },
        none, c.buffer.retireEvents⟩

/-! ## Issue -/

/-- A branch computes 1 when it is taken and 0 when not, and leaves no flags. -/
def execute (c : Core) (operation : Operation) (r : Request) : After Outcome :=
  match operation with
  | .alu op =>
    ⟨{ c with stats := { c.stats with aluIssued := c.stats.aluIssued + 1 } },
      op.execute r.operands.a r.operands.b, []⟩
  | .branch condition =>
    let (settled, predictor) := c.predictor.resolve condition r.operands.f
    let stats := { c.stats with branchIssued := c.stats.branchIssued + 1 }
    let stats :=
      if settled.mispredicted then { stats with mispredicted := stats.mispredicted + 1 }
      else { stats with predicted := stats.predicted + 1 }
    ⟨{ c with predictor, stats }, ⟨if settled.taken then 1 else 0, 0⟩,
      [.branchResolved r.tag settled]⟩

/-- Decodes before the slot is freed, so an entry that does not decode stays where it is. -/
def issue (c : Core) : After (Except CoreError (Option Tag)) :=
  match c.station.peek, c.station.issue with
  | some e, some (r, station) =>
    match e.opcode.decode with
    | none => ⟨c, .error (.unrecognizedOpcode e.tag e.opcode), []⟩
    | some operation =>
      let done := { c with station }.execute operation r
      ⟨{ done.core with
          bus := (done.core.bus.latch ⟨r.tag, done.answer⟩).1
          stats := { done.core.stats with issued := done.core.stats.issued + 1 } },
        .ok (some r.tag), .issued r :: done.events⟩
  | _, _ =>
    ⟨{ c with stats := { c.stats with issueIdle := c.stats.issueIdle + 1 } }, .ok none, []⟩

/-! ## Fetch and dispatch -/

/-- Fills the latch from the source, if it is empty and the source is not. -/
def fetch (c : Core) (source : List Instruction) : Core × List Instruction :=
  match c.latch, source with
  | none, i :: rest => ({ c with latch := some i }, rest)
  | _, _ => (c, source)

/-- Dispatches from the latch. An instruction that is held back stays there; one that is refused
does not. The answer has the tag that was dispatched and the reason for holding one back. -/
def dispatchLatched (c : Core) : After (Except CoreError (Option Tag × Option Stall)) :=
  match c.latch with
  | none => ⟨c, .ok (none, none), []⟩
  | some i =>
    let d := { c with latch := none }.dispatch i
    match d.answer with
    | .error e => ⟨d.core, .error e, d.events⟩
    | .ok none => ⟨d.core, .ok (some i.tag, none), d.events⟩
    | .ok (some stall) => ⟨{ d.core with latch := some i }, .ok (none, some stall), d.events⟩

/-! ## The whole cycle -/

/-- A cycle, carried out. What the phases before an error did stays done. -/
structure Cycle where
  core : Core
  source : List Instruction
  retired : Option ReorderBuffer.Entry
  outcome : Except CoreError CycleReport
  events : List Event

def step (c : Core) (source : List Instruction) : Cycle :=
  let delivered := { c with stats := { c.stats with cycles := c.stats.cycles + 1 } }.deliver
  let retired := delivered.core.retire
  let issued := retired.core.issue
  let events := delivered.events ++ retired.events ++ issued.events
  match issued.answer with
  | .error e => ⟨issued.core, source, retired.answer, .error e, events⟩
  | .ok tag =>
    let (fetched, rest) := issued.core.fetch source
    let dispatched := fetched.dispatchLatched
    let events := events ++ dispatched.events
    match dispatched.answer with
    | .error e => ⟨dispatched.core, rest, retired.answer, .error e, events⟩
    | .ok (entered, stall) =>
      let core := dispatched.core
      let report :=
        { cycle := core.stats.cycles
          broadcast := delivered.answer
          retired := retired.answer.map (·.tag)
          issued := tag
          dispatched := entered
          stall }
      ⟨core, rest, retired.answer, .ok report,
        events ++ if core.tracing then [.snapshot report.cycle core.station core.bus] else []⟩

end Core

end OutOfOrder
