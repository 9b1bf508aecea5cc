import Mathlib
import OutOfOrder.Core.Step
import OutOfOrder.Proofs.Station

/-!
# The phases of a cycle

What each phase of a cycle can do, said once: broadcast (`deliver_idle`, `deliver_busy`),
retirement (`retire_some`, `retire_none`), issue (`issue_cases`) and dispatch (`dispatch_cases`,
`late_cases`). `step_eq` puts a cycle together from them; `step_completed`, `step_retired`,
`step_issued` and `step_end` tell what it broadcast, retired, issued and installed.
-/

namespace OutOfOrder

/-! ## What a call did -/

def Event.request? : Event → Option Request
  | issued r => some r
  | _ => none

/-- Whether a broadcast found its entry in the reorder buffer. -/
def Event.completed? : Event → Option Bool
  | broadcast _ _ completed => some completed
  | _ => none

/-- What an operation computes from its inputs. A branch computes 1 when it is taken and 0 when
not, and leaves no flags. -/
def Operation.outcome : Operation → Operands Int32 → Outcome
  | alu op, x => op.execute x.a x.b
  | branch condition, x => ⟨if condition.taken x.f then 1 else 0, 0⟩

namespace Core

/-- The requests that a cycle sent to the execution units. -/
def Cycle.issued (c : Cycle) : List Request := c.events.filterMap Event.request?

/-- Whether a cycle installed the instruction that it was offered. -/
def Cycle.installs (c : Cycle) : Bool :=
  match c.outcome with
  | .ok report => report.dispatched.isSome
  | .error _ => false

/-- The instruction that a cycle offers to dispatch: the latched one, else the next of the
source. -/
def offered (c : Core) (source : List Instruction) : Option Instruction := c.latch.or source.head?

/-- Whether a dispatch installed its instruction. -/
def After.installs (d : After (Except CoreError (Option Stall))) : Bool :=
  match d.answer with
  | .ok none => true
  | _ => false

/-! ## Dispatch -/

section
variable {c : Core} {i : Instruction}

theorem dispatch_refused (hd : i.opcode.decode = none) :
    c.dispatch i = ⟨c, .error (.unrecognizedOpcode i.tag i.opcode), []⟩ := by
  simp [dispatch, hd]

theorem dispatch_stationFull (hd : i.opcode.decode.isSome = true) (hs : c.station.isFull = true) :
    c.dispatch i =
      ⟨{ c with stats := { c.stats with stationStalls := c.stats.stationStalls + 1 } },
        .ok (some .stationFull), [.dispatchStalled i.tag .stationFull]⟩ := by
  rw [Option.isSome_iff_ne_none] at hd
  simp [dispatch, hd, hs]

theorem dispatch_bufferFull (hd : i.opcode.decode.isSome = true) (hs : c.station.isFull = false)
    (hb : c.buffer.isFull = true) :
    c.dispatch i =
      ⟨{ c with stats := { c.stats with bufferStalls := c.stats.bufferStalls + 1 } },
        .ok (some .bufferFull), [.dispatchStalled i.tag .bufferFull]⟩ := by
  rw [Option.isSome_iff_ne_none] at hd
  simp [dispatch, hd, hs, hb]

theorem dispatch_room (hd : i.opcode.decode.isSome = true) (hs : c.station.isFull = false)
    (hb : c.buffer.isFull = false) :
    c.dispatch i = ⟨c.install i, .ok none, [.dispatched (c.resolved i)]⟩ := by
  rw [Option.isSome_iff_ne_none] at hd
  simp [dispatch, hd, hs, hb]

end

/-- A dispatch refuses an instruction, holds it back, or installs it. -/
theorem dispatch_cases (c : Core) (i : Instruction) :
    (i.opcode.decode = none ∧
        c.dispatch i = ⟨c, .error (.unrecognizedOpcode i.tag i.opcode), []⟩) ∨
      (∃ stall stats,
        c.dispatch i = ⟨{ c with stats }, .ok (some stall), [.dispatchStalled i.tag stall]⟩ ∧
          stats.cycles = c.stats.cycles) ∨
      (i.opcode.decode.isSome = true ∧ c.station.isFull = false ∧ c.buffer.isFull = false ∧
        c.dispatch i = ⟨c.install i, .ok none, [.dispatched (c.resolved i)]⟩) := by
  cases hd : i.opcode.decode with
  | none => exact .inl ⟨rfl, dispatch_refused hd⟩
  | some op =>
    have hd : i.opcode.decode.isSome = true := by rw [hd]; rfl
    cases hs : c.station.isFull with
    | true => exact .inr (.inl ⟨_, _, dispatch_stationFull hd hs, rfl⟩)
    | false =>
      cases hb : c.buffer.isFull with
      | true => exact .inr (.inl ⟨_, _, dispatch_bufferFull hd hs hb, rfl⟩)
      | false => exact .inr (.inr ⟨rfl, rfl, rfl, dispatch_room hd hs hb⟩)

theorem cycles_dispatch (c : Core) (i : Instruction) :
    (c.dispatch i).core.stats.cycles = c.stats.cycles := by
  obtain ⟨-, he⟩ | ⟨stall, stats, he, hs⟩ | ⟨-, -, -, he⟩ := c.dispatch_cases i
  · rw [he]
  · rw [he]
    exact hs
  · rw [he]
    rfl

/-- An operand is dispatched as it is, or with the value that was found for it. -/
theorem resolve_cases (c : Core) (k : Input) (slot : Operand) :
    (slot.waiting = false ∧ (c.resolve k slot).1 = slot) ∨
      (slot.waiting = true ∧ c.supply? slot.tag = none ∧ (c.resolve k slot).1 = slot) ∨
      ∃ s, slot.waiting = true ∧ c.supply? slot.tag = some s ∧
        (c.resolve k slot).1 = { slot with waiting := false, value := s.outcome.read k } := by
  unfold resolve
  cases hw : slot.waiting with
  | false => exact .inl ⟨rfl, rfl⟩
  | true =>
    cases hs : c.supply? slot.tag with
    | none => exact .inr (.inl ⟨rfl, rfl, rfl⟩)
    | some s => exact .inr (.inr ⟨s, rfl, rfl, by simp [Operand.resolve, Operand.waitsOn, hw]⟩)

@[simp] theorem get_resolved (c : Core) (i : Instruction) (k : Input) :
    (c.resolved i).operands.get k = (c.resolve k (i.operands.get k)).1 := Operands.get_map _ _ k

/-! ## Broadcast and retirement -/

theorem deliver_idle {c : Core} (h : c.bus.pending = none) : c.deliver = ⟨c, none, []⟩ := by
  simp [deliver, ResultBus.drive, h]

theorem deliver_busy {c : Core} {r : Result} (h : c.bus.pending = some r) :
    c.deliver =
      ⟨{ c with
          station := (c.station.wake r).1
          buffer := (c.buffer.complete r).1
          bus := .idle
          stats :=
            { c.stats with
              broadcasts := c.stats.broadcasts + 1
              woken := c.stats.woken + (c.station.wake r).2 } },
        some r.tag, (broadcast r c.station c.buffer).events r⟩ := by
  simp only [deliver, ResultBus.drive, h, Option.map_some]
  rfl

theorem deliver_answer (c : Core) : c.deliver.answer = c.bus.pending.map (·.tag) := by
  cases h : c.bus.pending with
  | none => rw [deliver_idle h]; rfl
  | some r => rw [deliver_busy h]; rfl

theorem retire_some {c : Core} {e : ReorderBuffer.Entry} {buffer : ReorderBuffer}
    (h : c.buffer.retire = some (e, buffer)) :
    c.retire =
      ⟨{ c with
          buffer
          committed := c.committed.commit e.tag e.outcome
          stats := { c.stats with retired := c.stats.retired + 1 } },
        some e, [.retired e]⟩ := by
  simp [retire, h]

/-- A cycle in which nothing retires changes at most the statistics. -/
theorem retire_none {c : Core} (h : c.buffer.retire = none) :
    c.retire.answer = none ∧ ∃ stats, c.retire.core = { c with stats } ∧
      stats.cycles = c.stats.cycles := by
  simp only [retire, h]
  split
  · exact ⟨rfl, _, rfl, rfl⟩
  · exact ⟨rfl, _, rfl, rfl⟩

theorem retire_answer (c : Core) : c.retire.answer = c.buffer.retire.map (·.1) := by
  cases h : c.buffer.retire with
  | none => exact (retire_none h).1
  | some p => rw [retire_some h]; rfl

/-- Retirement does not touch the station. -/
theorem station_retire (c : Core) : c.retire.core.station = c.station := by
  cases h : c.buffer.retire with
  | none =>
    obtain ⟨-, stats, he, -⟩ := retire_none h
    rw [he]
  | some p => rw [retire_some h]

/-! ## Issue -/

theorem execute_answer (c : Core) (op : Operation) (r : Request) :
    (c.execute op r).answer = op.outcome r.operands := by
  cases op <;> rfl

theorem execute_core (c : Core) (op : Operation) (r : Request) :
    ∃ predictor stats, (c.execute op r).core = { c with predictor, stats } ∧
      stats.cycles = c.stats.cycles := by
  cases op with
  | alu op => exact ⟨c.predictor, _, rfl, rfl⟩
  | branch condition =>
    refine ⟨_, _, rfl, ?_⟩
    simp only
    split <;> rfl

theorem requests_execute (c : Core) (op : Operation) (r : Request) :
    (c.execute op r).events.filterMap Event.request? = [] := by
  cases op <;> rfl

theorem issue_none {c : Core} (h : c.station.issue = none) :
    c.issue =
      ⟨{ c with stats := { c.stats with issueIdle := c.stats.issueIdle + 1 } }, .ok none, []⟩ := by
  cases hp : c.station.peek <;> simp [issue, h, hp]

/-- The entry that is ready leaves the station, and what it computes goes to the bus. -/
theorem issue_some {c : Core} {r : Request} {station : Station} {e : Station.Entry} {op : Operation}
    (h : c.station.issue = some (r, station)) (hp : c.station.peek = some e)
    (hd : e.opcode.decode = some op) :
    ∃ predictor stats, stats.cycles = c.stats.cycles ∧
      c.issue.core =
        { c with
          station, predictor, stats
          bus := (c.bus.latch ⟨r.tag, op.outcome r.operands⟩).1 } ∧
      c.issue.answer = .ok (some r.tag) ∧ c.issue.events.filterMap Event.request? = [r] := by
  have hc : c.issue =
      let done := { c with station }.execute op r
      ⟨{ done.core with
          bus := (done.core.bus.latch ⟨r.tag, done.answer⟩).1
          stats := { done.core.stats with issued := done.core.stats.issued + 1 } },
        .ok (some r.tag), .issued r :: done.events⟩ := by
    simp [issue, h, hp, hd]
  obtain ⟨predictor, stats, he, hs⟩ := execute_core { c with station } op r
  refine ⟨predictor, { stats with issued := stats.issued + 1 }, hs, ?_, by rw [hc], ?_⟩
  · rw [hc]
    dsimp only
    rw [he, execute_answer]
  · rw [hc]
    have := requests_execute { c with station } op r
    simp only [List.filterMap_cons, Event.request?, this]

/-- An issue finds nothing ready, meets an entry that does not decode, or executes a ready one. -/
theorem issue_cases (c : Core) :
    (c.station.issue = none ∧ ∃ stats, c.issue = ⟨{ c with stats }, .ok none, []⟩ ∧
        stats.cycles = c.stats.cycles) ∨
      (∃ e ∈ c.station.live, e.opcode.decode = none ∧
        c.issue = ⟨c, .error (.unrecognizedOpcode e.tag e.opcode), []⟩) ∨
      ∃ e n station op predictor stats, c.station.oldestReady = some (e, n) ∧
        c.station.issue = some (e.request, station) ∧ e.opcode.decode = some op ∧
        stats.cycles = c.stats.cycles ∧
        c.issue.core =
          { c with
            station, predictor, stats
            bus := (c.bus.latch ⟨e.tag, op.outcome e.operands.values⟩).1 } ∧
        c.issue.answer = .ok (some e.tag) ∧
        c.issue.events.filterMap Event.request? = [e.request] := by
  cases hi : c.station.issue with
  | none => exact .inl ⟨rfl, _, issue_none hi, rfl⟩
  | some p =>
    obtain ⟨r, station⟩ := p
    obtain ⟨e, n, ho, hp, hr, rfl, hl, -⟩ := Station.issue_eq_some hi
    cases hd : e.opcode.decode with
    | none =>
      refine .inr (.inl ⟨e, hl.symm.subset List.mem_cons_self, hd, ?_⟩)
      simp [issue, hi, hp, hd]
    | some op =>
      obtain ⟨predictor, stats, hs, h⟩ := issue_some hi hp hd
      exact .inr (.inr ⟨e, n, station, op, predictor, stats, ho, rfl, hd, hs, h⟩)

theorem buffer_issue (c : Core) : c.issue.core.buffer = c.buffer := by
  obtain ⟨-, stats, he, -⟩ | ⟨e, -, -, he⟩ | ⟨e, n, station, op, predictor, stats, -, -, -, -, he,
    -⟩ := c.issue_cases
  all_goals rw [he]

/-- Where every entry decodes, the issue phase answers with what it sent. -/
theorem issue_answer {c : Core} (hd : ∀ e ∈ c.station.live, e.opcode.decode.isSome = true) :
    c.issue.answer = .ok ((c.issue.events.filterMap Event.request?).head?.map (·.tag)) := by
  obtain ⟨-, stats, he, -⟩ | ⟨e, hm, hn, -⟩ | ⟨e, n, station, op, predictor, stats, -, -, -, -, -,
    ha, hr⟩ := c.issue_cases
  · rw [he]
    rfl
  · have := hd e hm
    rw [hn] at this
    cases this
  · rw [ha, hr]
    rfl

/-! ## A whole cycle -/

/-- The core when the broadcast phase of its next cycle begins. -/
def begun (c : Core) : Core := { c with stats := { c.stats with cycles := c.stats.cycles + 1 } }

/-- The core when the issue phase of its next cycle begins. -/
def settled (c : Core) : Core := c.begun.deliver.core.retire.core

/-- What a cycle reports, given what its last two phases did. -/
def report (c : Core) (issued entered : Option Tag) (stall : Option Stall) : CycleReport where
  cycle := c.stats.cycles + 1
  broadcast := c.bus.pending.map (·.tag)
  retired := c.begun.deliver.core.retire.answer.map (·.tag)
  issued := issued
  dispatched := entered
  stall := stall

theorem fetch_eq (c : Core) (source : List Instruction) :
    c.fetch source =
      ({ c with latch := c.offered source }, if c.latch.isNone then source.tail else source) := by
  obtain ⟨_, _, _, _, _, latch, _, _⟩ := c
  cases latch <;> cases source <;> rfl

theorem deliver_outer (c : Core) :
    c.deliver.core.latch = c.latch ∧ c.deliver.core.stats.cycles = c.stats.cycles := by
  cases h : c.bus.pending with
  | none => rw [deliver_idle h]; exact ⟨rfl, rfl⟩
  | some r => rw [deliver_busy h]; exact ⟨rfl, rfl⟩

theorem retire_outer (c : Core) :
    c.retire.core.latch = c.latch ∧ c.retire.core.stats.cycles = c.stats.cycles := by
  cases h : c.buffer.retire with
  | none =>
    obtain ⟨-, stats, he, hs⟩ := retire_none h
    rw [he]
    exact ⟨rfl, hs⟩
  | some p =>
    obtain ⟨e, buffer⟩ := p
    rw [retire_some h]
    exact ⟨rfl, rfl⟩

theorem issue_outer (c : Core) :
    c.issue.core.latch = c.latch ∧ c.issue.core.stats.cycles = c.stats.cycles := by
  obtain ⟨-, stats, he, hs⟩ | ⟨e, -, -, he⟩ | ⟨e, n, station, op, predictor, stats, -, -, -, hs, he,
    -⟩ := c.issue_cases
  all_goals rw [he]
  · exact ⟨rfl, hs⟩
  · exact ⟨rfl, rfl⟩
  · exact ⟨rfl, hs⟩

/-- Latch and cycle number when the dispatch phase begins. -/
theorem settled_outer (c : Core) :
    c.settled.issue.core.latch = c.latch ∧
      c.settled.issue.core.stats.cycles = c.stats.cycles + 1 := by
  unfold settled
  rw [(issue_outer _).1, (retire_outer _).1, (deliver_outer _).1, (issue_outer _).2,
    (retire_outer _).2, (deliver_outer _).2]
  exact ⟨rfl, rfl⟩

/-- The events of a cycle up to its issue phase. -/
def early (c : Core) : List Event :=
  c.begun.deliver.events ++ c.begun.deliver.core.retire.events ++ c.settled.issue.events

/-- The dispatch phase of the next cycle. -/
def late (c : Core) (source : List Instruction) :
    After (Except CoreError (Option Tag × Option Stall)) :=
  { c.settled.issue.core with latch := c.offered source }.dispatchLatched

/-- A cycle in terms of its phases. -/
theorem step_eq (c : Core) (source : List Instruction) :
    c.step source =
      match c.settled.issue.answer with
      | .error e =>
        ⟨c.settled.issue.core, source, c.begun.deliver.core.retire.answer, .error e, c.early⟩
      | .ok tag =>
        let rest := if c.latch.isNone then source.tail else source
        match (c.late source).answer with
        | .error e =>
          ⟨(c.late source).core, rest, c.begun.deliver.core.retire.answer, .error e,
            c.early ++ (c.late source).events⟩
        | .ok (entered, stall) =>
          ⟨(c.late source).core, rest, c.begun.deliver.core.retire.answer,
            .ok { c.report tag entered stall with cycle := (c.late source).core.stats.cycles },
            c.early ++ (c.late source).events ++
              if (c.late source).core.tracing then
                [.snapshot (c.late source).core.stats.cycles (c.late source).core.station
                  (c.late source).core.bus]
              else []⟩ := by
  have hl := fetch_eq c.settled.issue.core source
  rw [offered, (settled_outer c).1] at hl
  have hs : c.step source =
      match c.settled.issue.answer with
      | .error e =>
        ⟨c.settled.issue.core, source, c.begun.deliver.core.retire.answer, .error e, c.early⟩
      | .ok tag =>
        let d := (c.settled.issue.core.fetch source).1.dispatchLatched
        let rest := (c.settled.issue.core.fetch source).2
        match d.answer with
        | .error e =>
          ⟨d.core, rest, c.begun.deliver.core.retire.answer, .error e, c.early ++ d.events⟩
        | .ok (entered, stall) =>
          ⟨d.core, rest, c.begun.deliver.core.retire.answer,
            .ok
              { cycle := d.core.stats.cycles
                broadcast := c.begun.deliver.answer
                retired := c.begun.deliver.core.retire.answer.map (·.tag)
                issued := tag
                dispatched := entered
                stall },
            c.early ++ d.events ++
              if d.core.tracing then [.snapshot d.core.stats.cycles d.core.station d.core.bus]
              else []⟩ := rfl
  rw [hs, hl, deliver_answer]
  rfl

theorem step_retired (c : Core) (source : List Instruction) :
    (c.step source).retired = c.begun.deliver.core.retire.answer := by
  rw [step_eq]
  split
  · rfl
  · dsimp only
    split <;> rfl

theorem late_eq {c : Core} {source : List Instruction} {i : Instruction}
    (h : c.offered source = some i) :
    c.late source =
      let d := { c.settled.issue.core with latch := none }.dispatch i
      match d.answer with
      | .error e => ⟨d.core, .error e, d.events⟩
      | .ok none => ⟨d.core, .ok (some i.tag, none), d.events⟩
      | .ok (some stall) =>
        ⟨{ d.core with latch := some i }, .ok (none, some stall), d.events⟩ := by
  rw [late, h]
  rfl

/-- A cycle in which no phase fails. -/
theorem step_ok {c : Core} {source : List Instruction} {issued entered : Option Tag}
    {stall : Option Stall} (hi : c.settled.issue.answer = .ok issued)
    (hl : (c.late source).answer = .ok (entered, stall))
    (hc : (c.late source).core.stats.cycles = c.stats.cycles + 1) :
    (c.step source).outcome = .ok (c.report issued entered stall) ∧
      (c.step source).core = (c.late source).core ∧
      (c.step source).source = if c.latch.isNone then source.tail else source := by
  rw [step_eq, hi]
  dsimp only
  rw [hl, hc]
  exact ⟨rfl, rfl, rfl⟩

/-- How a cycle ends after its issue phase: nothing is offered, or the instruction is refused, held
back or installed. -/
theorem late_cases (c : Core) (source : List Instruction) :
    (c.offered source = none ∧
        c.late source = ⟨{ c.settled.issue.core with latch := none }, .ok (none, none), []⟩) ∨
      ∃ i, c.offered source = some i ∧
        ((i.opcode.decode = none ∧
            c.late source = ⟨{ c.settled.issue.core with latch := none },
              .error (.unrecognizedOpcode i.tag i.opcode), []⟩) ∨
          (∃ stall stats,
            c.late source = ⟨{ c.settled.issue.core with latch := some i, stats },
                .ok (none, some stall), [.dispatchStalled i.tag stall]⟩ ∧
              stats.cycles = c.settled.issue.core.stats.cycles) ∨
          (i.opcode.decode.isSome = true ∧ c.settled.issue.core.station.isFull = false ∧
            c.settled.issue.core.buffer.isFull = false ∧
            c.late source = ⟨{ c.settled.issue.core with latch := none }.install i,
              .ok (some i.tag, none),
              [.dispatched ({ c.settled.issue.core with latch := none }.resolved i)]⟩)) := by
  cases ho : c.offered source with
  | none => exact .inl ⟨rfl, by rw [late, ho]; rfl⟩
  | some i =>
    refine .inr ⟨i, rfl, ?_⟩
    rw [late_eq ho]
    obtain ⟨hd, he⟩ | ⟨stall, stats, he, hs⟩ | ⟨hd, hs, hb, he⟩ :=
      { c.settled.issue.core with latch := none }.dispatch_cases i
    · exact .inl ⟨hd, by rw [he]⟩
    · exact .inr (.inl ⟨stall, stats, by rw [he], hs⟩)
    · exact .inr (.inr ⟨hd, hs, hb, by rw [he]⟩)

theorem cycles_late (c : Core) (source : List Instruction) :
    (c.late source).core.stats.cycles = c.stats.cycles + 1 := by
  rw [← (settled_outer c).2]
  obtain ⟨-, he⟩ | ⟨i, -, ⟨-, he⟩ | ⟨stall, stats, he, hs⟩ | ⟨-, -, -, he⟩⟩ := c.late_cases source
  · rw [he]
  · rw [he]
  · rw [he]
    exact hs
  · rw [he]
    rfl

theorem cycles_step (c : Core) (source : List Instruction) :
    (c.step source).core.stats.cycles = c.stats.cycles + 1 := by
  rw [step_eq]
  split
  · exact (settled_outer c).2
  · dsimp only
    split <;> exact cycles_late c source

/-- What a cycle does after its issue phase: it installs the instruction that it was offered, or
changes nothing but the latch and the statistics. -/
theorem step_end (c : Core) (source : List Instruction) :
    ((c.step source).installs = false ∧
        ∃ latch stats, (c.step source).core = { c.settled.issue.core with latch, stats }) ∨
      ∃ i, c.offered source = some i ∧ i.opcode.decode.isSome = true ∧
        c.settled.issue.core.station.isFull = false ∧
        c.settled.issue.core.buffer.isFull = false ∧ (c.step source).installs = true ∧
        (c.step source).core = { c.settled.issue.core with latch := none }.install i := by
  rw [step_eq]
  cases c.settled.issue.answer with
  | error e => exact .inl ⟨rfl, c.settled.issue.core.latch, c.settled.issue.core.stats, rfl⟩
  | ok tag =>
    obtain ⟨-, he⟩ | ⟨i, ho, ⟨-, he⟩ | ⟨stall, stats, he, -⟩ | ⟨hd, hs, hb, he⟩⟩ :=
      c.late_cases source
    · rw [he]
      exact .inl ⟨rfl, none, c.settled.issue.core.stats, rfl⟩
    · rw [he]
      exact .inl ⟨rfl, none, c.settled.issue.core.stats, rfl⟩
    · rw [he]
      exact .inl ⟨rfl, some i, stats, rfl⟩
    · rw [he]
      exact .inr ⟨i, ho, hd, hs, hb, rfl, rfl⟩

section
variable {c : Core} {source : List Instruction} {issued : Option Tag}

/-- The source is asked once if the latch is empty, and not at all if it is not. -/
theorem step_source (hi : c.settled.issue.answer = .ok issued) :
    (c.step source).source = if c.latch.isNone then source.tail else source := by
  rw [step_eq, hi]
  dsimp only
  split <;> rfl

/-- What becomes of the instruction that a cycle is offered: it is refused and dropped, held back in
the latch, or installed. -/
theorem step_offered (hi : c.settled.issue.answer = .ok issued) {i : Instruction}
    (ho : c.offered source = some i) :
    (i.opcode.decode = none ∧ (c.step source).core.latch = none ∧
        (c.step source).outcome = .error (.unrecognizedOpcode i.tag i.opcode)) ∨
      (i.opcode.decode.isSome = true ∧ (c.step source).core.latch = some i ∧
        ∃ stall, (c.step source).outcome = .ok (c.report issued none (some stall))) ∨
      (i.opcode.decode.isSome = true ∧ c.settled.issue.core.buffer.isFull = false ∧
        (c.step source).core = { c.settled.issue.core with latch := none }.install i ∧
        (c.step source).outcome = .ok (c.report issued (some i.tag) none)) := by
  have hlate := late_eq ho
  have hcycles := cycles_late c source
  cases hd : i.opcode.decode with
  | none =>
    refine .inl ⟨rfl, ?_⟩
    rw [dispatch_refused hd] at hlate
    rw [step_eq, hi]
    dsimp only
    rw [hlate]
    exact ⟨rfl, rfl⟩
  | some op =>
    have hd : i.opcode.decode.isSome = true := by rw [hd]; rfl
    refine .inr ?_
    obtain ⟨hn, -⟩ | ⟨stall, stats, he, -⟩ | ⟨-, -, hb, he⟩ :=
      { c.settled.issue.core with latch := none }.dispatch_cases i
    · rw [hn] at hd
      cases hd
    · rw [he] at hlate
      obtain ⟨hout, hcore, -⟩ := step_ok hi (by rw [hlate]) hcycles
      refine .inl ⟨rfl, ?_, stall, hout⟩
      rw [hcore, hlate]
    · rw [he] at hlate
      obtain ⟨hout, hcore, -⟩ := step_ok hi (by rw [hlate]) hcycles
      refine .inr ⟨rfl, hb, ?_, hout⟩
      rw [hcore, hlate]

end

/-- A cycle with nothing latched and nothing to fetch ends with its issue phase. -/
theorem step_idle {c : Core} (h : c.latch = none) :
    (c.step []).core = c.settled.issue.core ∧ (c.step []).installs = false := by
  have hl : { c.settled.issue.core with latch := none } = c.settled.issue.core := by
    rw [← h, ← (settled_outer c).1]
  have ho : c.offered [] = none := by rw [offered, h]; rfl
  have he : c.late [] = ⟨c.settled.issue.core, .ok (none, none), []⟩ := by
    rw [late, ho, hl]
    simp [dispatchLatched, (settled_outer c).1, h]
  rw [step_eq, he]
  split <;> exact ⟨rfl, rfl⟩

/-! ## Events of a cycle -/

theorem filterMap_late {β : Type} {f : Event → Option β}
    (hs : ∀ tag stall, f (.dispatchStalled tag stall) = none)
    (hd : ∀ i, f (.dispatched i) = none) (c : Core) (source : List Instruction) :
    (c.late source).events.filterMap f = [] := by
  obtain ⟨-, he⟩ | ⟨i, -, ⟨-, he⟩ | ⟨stall, stats, he, -⟩ | ⟨-, -, -, he⟩⟩ := c.late_cases source
  · rw [he]; rfl
  · rw [he]; rfl
  · rw [he, List.filterMap_cons, hs]; rfl
  · rw [he, List.filterMap_cons, hd]; rfl

/-- What tells nothing of dispatch tells the same of a cycle as of its first three phases. -/
theorem filterMap_step {β : Type} {f : Event → Option β}
    (hs : ∀ tag stall, f (.dispatchStalled tag stall) = none)
    (hd : ∀ i, f (.dispatched i) = none) (hn : ∀ n s bus, f (.snapshot n s bus) = none)
    (c : Core) (source : List Instruction) :
    (c.step source).events.filterMap f = c.early.filterMap f := by
  have hlate := filterMap_late hs hd c source
  rw [step_eq]
  split
  · rfl
  · dsimp only
    split
    · rw [List.filterMap_append, hlate, List.append_nil]
    · rw [List.filterMap_append, List.filterMap_append, hlate, List.append_nil]
      split
      · rw [List.filterMap_cons, hn, List.filterMap_nil, List.append_nil]
      · exact List.append_nil _

theorem requests_deliver (c : Core) : c.deliver.events.filterMap Event.request? = [] := by
  cases h : c.bus.pending with
  | none => rw [deliver_idle h]; rfl
  | some r => rw [deliver_busy h]; rfl

theorem filterMap_retire {β : Type} {f : Event → Option β}
    (hs : ∀ tag, f (.retireStalled tag) = none) (hr : ∀ e, f (.retired e) = none) (c : Core) :
    c.retire.events.filterMap f = [] := by
  unfold retire ReorderBuffer.retireEvents
  split
  · simp [hr]
  · split
    · rfl
    · dsimp only
      split
      · split <;> simp [hs]
      · rfl

/-- The issue phase alone sends requests. -/
theorem step_issued (c : Core) (source : List Instruction) :
    (c.step source).issued = c.settled.issue.events.filterMap Event.request? := by
  rw [Cycle.issued, filterMap_step (fun _ _ => rfl) (fun _ => rfl) (fun _ _ _ => rfl), early,
    List.filterMap_append, List.filterMap_append, requests_deliver,
    filterMap_retire (fun _ => rfl) (fun _ => rfl)]
  rfl

/-- A report names the instruction that was sent. -/
theorem report_issued {c : Core} {source : List Instruction} {report : CycleReport}
    (h : (c.step source).outcome = .ok report) :
    report.issued = ((c.step source).issued.map (·.tag)).head? := by
  rw [step_issued]
  rw [step_eq] at h
  obtain ⟨-, stats, he, -⟩ | ⟨e, -, -, he⟩ | ⟨e, n, station, op, predictor, stats, -, -, -, -, -,
    ha, hr⟩ := c.settled.issue_cases
  · rw [he] at h ⊢
    dsimp only at h
    split at h <;> cases h
    rfl
  · rw [he] at h
    cases h
  · rw [ha] at h
    rw [hr]
    dsimp only at h
    split at h <;> cases h
    rfl

theorem completed_deliver (c : Core) :
    c.deliver.events.filterMap Event.completed? =
      c.bus.pending.toList.map fun r => (c.buffer.complete r).2 := by
  cases h : c.bus.pending with
  | none => rw [deliver_idle h]; rfl
  | some r => rw [deliver_busy h]; rfl

theorem filterMap_issue {β : Type} {f : Event → Option β} (hi : ∀ r, f (.issued r) = none)
    (hb : ∀ tag outcome, f (.branchResolved tag outcome) = none) (c : Core) :
    c.issue.events.filterMap f = [] := by
  unfold issue
  split
  · split
    · rfl
    · rename_i op _
      cases op <;> simp [execute, hi, hb]
  · rfl

/-- A cycle broadcasts what was latched before, and tells whether the buffer took it. -/
theorem step_completed (c : Core) (source : List Instruction) :
    (c.step source).events.filterMap Event.completed? =
      c.bus.pending.toList.map fun r => (c.buffer.complete r).2 := by
  rw [filterMap_step (fun _ _ => rfl) (fun _ => rfl) (fun _ _ _ => rfl), early,
    List.filterMap_append, List.filterMap_append, completed_deliver,
    filterMap_issue (fun _ => rfl) (fun _ _ => rfl),
    filterMap_retire (fun _ => rfl) (fun _ => rfl), List.append_nil, List.append_nil]
  rfl

end Core

end OutOfOrder
