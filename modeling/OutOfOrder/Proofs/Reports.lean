import Mathlib
import OutOfOrder.Proofs.Balance

/-!
# Reports, counters and events agree

A core tells what it does in five ways: a cycle reports it, a counter grows, an observer gets an
event, a retired entry is handed over, and the bus, the buffer and the latch show it. The first
three are kept up in different places of a cycle. `Activity` lists what they all speak of, and
`Tells` says that counters and events tell the same activities, each as often as the other. Every
phase keeps to that (`tells_deliver`, `tells_retire`, `tells_issue`, `tells_late`), so every cycle
and every run does: a counter is the number of events with its message
(`History.tally_eq_messages`). What a cycle tells is what its report has (`Core.tells_report`).
-/

namespace OutOfOrder

/-! ## What is told -/

/-- What a report can speak of. -/
inductive Activity
  | broadcast
  | retirement
  | issue
  | dispatch
  | stall (reason : Stall)
deriving DecidableEq

namespace Activity

/-- In the order in which a cycle comes to them. -/
def all : List Activity :=
  [broadcast, retirement, issue, dispatch, stall .stationFull, stall .bufferFull]

/-- The message of the events that tell of an activity. -/
def message : Activity → String
  | broadcast => "cdb broadcast"
  | retirement => "retire"
  | issue => "issue"
  | dispatch => "dispatch"
  | stall reason => s!"dispatch stalled: {reason.text}"

theorem filter_all (a : Activity) : all.filter (· = a) = [a] := by
  rcases a with _ | _ | _ | _ | (_ | _) <;> rfl

theorem message_inj {a b : Activity} : a.message = b.message ↔ a = b := by
  rcases a with _ | _ | _ | _ | (_ | _) <;> rcases b with _ | _ | _ | _ | (_ | _) <;> decide

end Activity

/-- The counter of an activity. -/
def Stats.tally (s : Stats) : Activity → Nat
  | .broadcast => s.broadcasts
  | .retirement => s.retired
  | .issue => s.issued
  | .dispatch => s.dispatched
  | .stall .stationFull => s.stationStalls
  | .stall .bufferFull => s.bufferStalls

/-- The activity that an event tells of, and the tag that it names. -/
def Event.tells : Event → Option (Activity × Tag)
  | broadcast r _ _ => some (.broadcast, r.tag)
  | retired e => some (.retirement, e.tag)
  | issued r => some (.issue, r.tag)
  | dispatched i => some (.dispatch, i.tag)
  | dispatchStalled tag reason => some (.stall reason, tag)
  | _ => none

/-- What a report has of an activity. The tag of a held-back instruction is that of the latch. -/
def CycleReport.tag? (r : CycleReport) (latch : Option Instruction) : Activity → Option Tag
  | .broadcast => r.broadcast
  | .retirement => r.retired
  | .issue => r.issued
  | .dispatch => r.dispatched
  | .stall reason => if r.stall = some reason then latch.map (·.tag) else none

/-- All that a report has. -/
def CycleReport.story (r : CycleReport) (latch : Option Instruction) : List (Activity × Tag) :=
  Activity.all.filterMap fun a => (r.tag? latch a).map (a, ·)

theorem filter_filterMap_pair {α β : Type} [DecidableEq α] (f : α → Option β) (a : α)
    (l : List α) :
    (l.filterMap fun b => (f b).map (b, ·)).filter (·.1 = a) =
      (l.filter (· = a)).filterMap fun b => (f b).map (b, ·) := by
  induction l with
  | nil => rfl
  | cons b l ih =>
    by_cases hb : b = a
    · subst hb
      cases hf : f b <;> simp [hf, ih]
    · cases hf : f b <;> simp [hb, hf, ih]

theorem CycleReport.filter_story (r : CycleReport) (latch : Option Instruction) (a : Activity) :
    (r.story latch).filter (·.1 = a) = (r.tag? latch a).toList.map (a, ·) := by
  rw [story, filter_filterMap_pair, a.filter_all]
  cases h : r.tag? latch a <;> simp [h]

/-! ## What an observer sees -/

namespace Event

theorem of_tells {e : Event} {a : Activity} {t : Tag} (h : e.tells = some (a, t)) :
    e.message = a.message ∧ e.fields.lookup "tag" = some (.text t.text) := by
  cases e <;> cases h <;> exact ⟨rfl, by simp [fields]⟩

/-- An event that tells of none has the message of none. -/
theorem message_ne {e : Event} (h : e.tells = none) (a : Activity) : e.message ≠ a.message := by
  have hwords : a.message ≠ "rs broadcast" ∧ a.message ≠ "retire stalled on waiting tail" ∧
      a.message ≠ "branch resolved" ∧ a.message ≠ "simulation finished" ∧
      a.message.toList.head? ≠ some '\n' := by
    rcases a with _ | _ | _ | _ | (_ | _) <;> decide
  obtain ⟨hwoken, hstalled, hbranch, hfinished, hline⟩ := hwords
  cases e with
  | woken tag slots => exact hwoken.symm
  | retireStalled tag => exact hstalled.symm
  | branchResolved tag outcome => exact hbranch.symm
  | finished cycles entries => exact hfinished.symm
  | snapshot n station bus =>
    -- the table of a snapshot begins on a new line
    intro he
    have hfirst (s t : String) : ("\n" ++ s ++ t).toList.head? = some '\n' := by simp
    exact hline (he ▸ hfirst station.text bus.text)
  | broadcast r resolved completed => cases h
  | retired e => cases h
  | issued r => cases h
  | dispatchStalled tag stall => cases h
  | dispatched i => cases h

/-- The events with the message of an activity, and the tags that they name. -/
theorem filter_message (events : List Event) (a : Activity) :
    (events.filter (·.message = a.message)).map (·.fields.lookup "tag") =
      ((events.filterMap tells).filter (·.1 = a)).map fun p => some (.text p.2.text) := by
  induction events with
  | nil => rfl
  | cons e events ih =>
    cases h : e.tells with
    | none =>
      rw [List.filterMap_cons_none h, List.filter_cons_of_neg (by simpa using message_ne h a), ih]
    | some p =>
      obtain ⟨hm, ht⟩ := of_tells h
      rw [List.filterMap_cons_some h]
      by_cases ha : p.1 = a
      · have hmessage : e.message = a.message := hm.trans (congrArg _ ha)
        rw [List.filter_cons_of_pos (by simpa using hmessage),
          List.filter_cons_of_pos (by simpa using ha), List.map_cons, List.map_cons, ih, ht]
      · have hmessage : e.message ≠ a.message := hm ▸ mt Activity.message_inj.1 ha
        rw [List.filter_cons_of_neg (by simpa using hmessage),
          List.filter_cons_of_neg (by simpa using ha), ih]

end Event

/-! ## Counters and events -/

/-- The events tell these activities, and the counters have grown by as many. -/
structure Tells (s : Stats) (events : List Event) (s' : Stats) (l : List (Activity × Tag)) :
    Prop where
  told : events.filterMap Event.tells = l
  counted : ∀ a, s'.tally a = s.tally a + l.countP (·.1 = a)

namespace Tells

variable {s s' s'' : Stats} {events more : List Event} {l m : List (Activity × Tag)}

theorem nothing (h : events.filterMap Event.tells = []) (hs : ∀ a, s'.tally a = s.tally a) :
    Tells s events s' [] := ⟨h, hs⟩

theorem single {a : Activity} {t : Tag} (h : events.filterMap Event.tells = [(a, t)])
    (hs : ∀ b, s'.tally b = s.tally b + if a = b then 1 else 0) :
    Tells s events s' [(a, t)] := by
  refine ⟨h, fun b => ?_⟩
  rw [hs b, List.countP_singleton]
  simp only [decide_eq_true_eq]

theorem append (h : Tells s events s' l) (h' : Tells s' more s'' m) :
    Tells s (events ++ more) s'' (l ++ m) := by
  refine ⟨by rw [List.filterMap_append, h.told, h'.told], fun a => ?_⟩
  rw [h'.counted, h.counted, List.countP_append, Nat.add_assoc]

end Tells

namespace Core

theorem tells_deliver (c : Core) :
    Tells c.stats c.deliver.events c.deliver.core.stats
      ((c.bus.pending.map (·.tag)).toList.map (.broadcast, ·)) := by
  cases h : c.bus.pending with
  | none =>
    rw [deliver_idle h]
    exact .nothing rfl fun _ => rfl
  | some r =>
    rw [deliver_busy h]
    exact .single rfl fun a => by rcases a with _ | _ | _ | _ | (_ | _) <;> rfl

theorem tells_retire (c : Core) :
    Tells c.stats c.retire.events c.retire.core.stats
      ((c.retire.answer.map (·.tag)).toList.map (.retirement, ·)) := by
  cases h : c.buffer.retire with
  | none =>
    simp only [retire, h]
    split
    · exact .nothing rfl fun _ => rfl
    · refine .nothing ?_ fun _ => rfl
      unfold ReorderBuffer.retireEvents
      split
      · split <;> rfl
      · rfl
  | some p =>
    rw [retire_some h]
    exact .single rfl fun a => by rcases a with _ | _ | _ | _ | (_ | _) <;> rfl

theorem tells_issue (c : Core) :
    Tells c.stats c.issue.events c.issue.core.stats
      (c.issue.answer.toOption.join.toList.map (.issue, ·)) := by
  unfold issue
  split
  · rename_i e r station _ _
    split
    · exact .nothing rfl fun _ => rfl
    · rename_i op _
      obtain ⟨predictor, alu, branch, hit, miss, he, -⟩ := execute_counts { c with station } op r
      refine .single ?_ fun a => ?_
      · cases op <;> rfl
      · dsimp only
        rw [he]
        rcases a with _ | _ | _ | _ | (_ | _) <;> rfl
  · exact .nothing rfl fun _ => rfl

/-- What a dispatch tells of an instruction, given its answer. -/
def toldLate (i : Instruction) : Except CoreError (Option Stall) → List (Activity × Tag)
  | .error _ => []
  | .ok none => [(.dispatch, i.tag)]
  | .ok (some reason) => [(.stall reason, i.tag)]

theorem tells_dispatch (c : Core) (i : Instruction) :
    Tells c.stats (c.dispatch i).events (c.dispatch i).core.stats
      (toldLate i (c.dispatch i).answer) := by
  unfold dispatch
  split
  · exact .nothing rfl fun _ => rfl
  split
  · exact .single rfl fun a => by rcases a with _ | _ | _ | _ | (_ | _) <;> rfl
  split
  · exact .single rfl fun a => by rcases a with _ | _ | _ | _ | (_ | _) <;> rfl
  · exact .single rfl fun a => by rcases a with _ | _ | _ | _ | (_ | _) <;> rfl

/-! ## A cycle -/

/-- What the phases before dispatch tell, given the tags that they broadcast, retired and issued. -/
def toldEarly (broadcast retired issued : Option Tag) : List (Activity × Tag) :=
  broadcast.toList.map (.broadcast, ·) ++ retired.toList.map (.retirement, ·) ++
    issued.toList.map (.issue, ·)

/-- The dispatch in the last phase of a cycle, if the instruction is offered. -/
def offeredTo (c : Core) (i : Instruction) : After (Except CoreError (Option Stall)) :=
  { c.settled.issue.core with latch := none }.dispatch i

theorem tells_early (c : Core) :
    Tells c.stats c.early c.settled.issue.core.stats
      (toldEarly (c.bus.pending.map (·.tag)) (c.begun.deliver.core.retire.answer.map (·.tag))
        c.settled.issue.answer.toOption.join) := by
  have hbegun : Tells c.stats [] c.begun.stats [] := .nothing rfl fun _ => rfl
  exact ((hbegun.append c.begun.tells_deliver).append (tells_retire _)).append (tells_issue _)

theorem tells_late (c : Core) (source : List Instruction) :
    Tells c.settled.issue.core.stats (c.late source).events (c.late source).core.stats
      ((c.offered source).toList.flatMap fun i => toldLate i (c.offeredTo i).answer) := by
  cases ho : c.offered source with
  | none =>
    obtain ⟨-, he⟩ | ⟨i, ho', -⟩ := c.late_cases source
    · rw [he]
      exact .nothing rfl fun _ => rfl
    · rw [ho] at ho'
      cases ho'
  | some i =>
    have htells := tells_dispatch { c.settled.issue.core with latch := none } i
    rw [late_eq ho, Option.toList_some, List.flatMap_singleton, offeredTo]
    dsimp only at htells ⊢
    split <;> rename_i ha <;> rw [ha] at htells ⊢ <;> exact ⟨htells.told, htells.counted⟩

/-- What a cycle tells, if none of its phases fails. -/
def toldBy (c : Core) (source : List Instruction) : List (Activity × Tag) :=
  toldEarly (c.bus.pending.map (·.tag)) (c.begun.deliver.core.retire.answer.map (·.tag))
      c.settled.issue.answer.toOption.join ++
    (c.offered source).toList.flatMap fun i => toldLate i (c.offeredTo i).answer

theorem nodup_toldBy (c : Core) (source : List Instruction) :
    ((c.toldBy source).map Prod.fst).Nodup := by
  have hlate : ((c.offered source).toList.flatMap fun i =>
      toldLate i (c.offeredTo i).answer).map Prod.fst ∈
        [[], [.dispatch], [.stall .stationFull], [.stall .bufferFull]] := by
    cases c.offered source with
    | none => exact List.mem_cons_self
    | some i =>
      rw [Option.toList_some, List.flatMap_singleton]
      rcases (c.offeredTo i).answer with e | _ | _ | _ <;> simp [toldLate]
  rw [toldBy, List.map_append]
  generalize c.bus.pending.map (·.tag) = broadcast
  generalize c.begun.deliver.core.retire.answer.map (·.tag) = retired
  generalize c.settled.issue.answer.toOption.join = issued
  generalize List.map Prod.fst (List.flatMap _ _) = late at hlate ⊢
  simp only [List.mem_cons, List.not_mem_nil, or_false] at hlate
  rcases hlate with rfl | rfl | rfl | rfl <;> cases broadcast <;> cases retired <;>
    cases issued <;> simp [toldEarly]

/-- A cycle that fails tells of what it did before. -/
theorem tells_step (c : Core) (source : List Instruction) :
    ∃ l, Tells c.stats (c.step source).events (c.step source).core.stats l ∧
      l <+: c.toldBy source ∧
      ∀ report, (c.step source).outcome = .ok report → l = c.toldBy source := by
  -- the events of the phases that were reached, and a snapshot that tells nothing
  have hearly := c.tells_early
  have hboth := hearly.append (c.tells_late source)
  rw [step_eq]
  split
  · exact ⟨_, hearly, List.prefix_append .., nofun⟩
  · dsimp only
    split
    · exact ⟨_, hboth, List.prefix_rfl, nofun⟩
    · have hsnapshot : Tells (c.late source).core.stats
          (if (c.late source).core.tracing then
            [.snapshot (c.late source).core.stats.cycles (c.late source).core.station
              (c.late source).core.bus]
          else []) (c.late source).core.stats [] := .nothing (by split <;> rfl) fun _ => rfl
      have hall := hboth.append hsnapshot
      rw [List.append_nil] at hall
      exact ⟨_, hall, List.prefix_rfl, fun _ _ => rfl⟩

/-! ## A report -/

/-- The ends of a cycle that reports: nothing was offered, or the instruction is held back or
installed. -/
theorem step_ok_cases {c : Core} {source : List Instruction} {report : CycleReport}
    (h : (c.step source).outcome = .ok report) :
    ∃ issued, c.settled.issue.answer = .ok issued ∧
      ((c.offered source = none ∧ report = c.report issued none none ∧
          (c.step source).core = { c.settled.issue.core with latch := none }) ∨
        ∃ i, c.offered source = some i ∧
          ((∃ reason stats, (c.offeredTo i).answer = .ok (some reason) ∧
              report = c.report issued none (some reason) ∧
              (c.step source).core = { c.settled.issue.core with latch := some i, stats }) ∨
            ((c.offeredTo i).answer = .ok none ∧ c.settled.issue.core.buffer.isFull = false ∧
              report = c.report issued (some i.tag) none ∧
              (c.step source).core = { c.settled.issue.core with latch := none }.install i))) := by
  cases hi : c.settled.issue.answer with
  | error e =>
    -- a cycle whose issue fails reports nothing
    rw [step_eq, hi] at h
    cases h
  | ok issued =>
    refine ⟨issued, rfl, ?_⟩
    have hcycles := c.cycles_late source
    cases ho : c.offered source with
    | none =>
      obtain ⟨-, he⟩ | ⟨i, ho', -⟩ := c.late_cases source
      · obtain ⟨hout, hcore, -⟩ := step_ok hi (by rw [he]) hcycles
        rw [hout] at h
        rw [hcore, he]
        exact .inl ⟨rfl, (Except.ok.inj h).symm, rfl⟩
      · rw [ho] at ho'
        cases ho'
    | some i =>
      refine .inr ⟨i, rfl, ?_⟩
      have hlate := late_eq ho
      obtain ⟨-, he⟩ | ⟨reason, stats, he, -⟩ | ⟨-, -, hb, he⟩ :=
        { c.settled.issue.core with latch := none }.dispatch_cases i
      · rw [he] at hlate
        rw [step_eq, hi, hlate] at h
        cases h
      · rw [he] at hlate
        obtain ⟨hout, hcore, -⟩ := step_ok hi (by rw [hlate]) hcycles
        rw [hout] at h
        rw [hcore, hlate]
        exact .inl ⟨reason, stats, by rw [offeredTo, he], (Except.ok.inj h).symm, rfl⟩
      · rw [he] at hlate
        obtain ⟨hout, hcore, -⟩ := step_ok hi (by rw [hlate]) hcycles
        rw [hout] at h
        rw [hcore, hlate]
        exact .inr ⟨by rw [offeredTo, he], hb, (Except.ok.inj h).symm, rfl⟩

/-- The story of a report in the order of the phases. -/
theorem story_eq (r : CycleReport) (latch : Option Instruction) :
    r.story latch = toldEarly r.broadcast r.retired r.issued ++
      (r.dispatched.toList.map (.dispatch, ·) ++
        r.stall.toList.flatMap fun reason => latch.toList.map fun i => (.stall reason, i.tag)) := by
  obtain ⟨_, broadcast, retired, issued, dispatched, stall⟩ := r
  rcases stall with _ | _ | _ <;> cases latch <;> cases broadcast <;> cases retired <;>
    cases issued <;> cases dispatched <;> rfl

/-- What a cycle issues is on the bus when it ends. -/
theorem issued_eq_pending {c : Core} {issued : Option Tag}
    (hi : c.settled.issue.answer = .ok issued) :
    issued = c.settled.issue.core.bus.pending.map (·.tag) := by
  have hfree : c.settled.bus.pending = none := (History.start c).pending_settle
  obtain ⟨-, stats, he, -⟩ | ⟨e, -, -, he⟩ | ⟨e, n, station, op, predictor, stats, -, -, -, -, he,
    ha, -⟩ := c.settled.issue_cases
  · rw [he] at hi ⊢
    rw [← Except.ok.inj hi, hfree]
    rfl
  · rw [he] at hi
    cases hi
  · rw [ha] at hi
    rw [he, ← Except.ok.inj hi, ResultBus.latch, if_pos (by rw [ResultBus.isFree, hfree]; rfl)]
    rfl

/-- What retires and what stays are what was in the buffer. -/
theorem key_settled (c : Core) :
    (c.begun.deliver.core.retire.answer.toList ++ c.settled.buffer.entries).map (·.key) =
      c.buffer.entries.map (·.key) := by
  have hdeliver : c.begun.deliver.core.buffer.entries.map (·.key) =
      c.buffer.entries.map (·.key) := by
    cases h : c.begun.bus.pending with
    | none => rw [deliver_idle h]; rfl
    | some r => rw [deliver_busy h]; exact c.buffer.map_key_complete r
  rw [← hdeliver, settled]
  cases h : c.begun.deliver.core.buffer.retire with
  | none =>
    obtain ⟨ha, stats, he, -⟩ := retire_none h
    rw [ha, he]
    rfl
  | some p =>
    obtain ⟨hl, -, -⟩ := ReorderBuffer.retire_eq_some h
    rw [retire_some h, hl]
    rfl

/-- Neither latch nor counters matter to a dispatch. -/
theorem answer_dispatch (c : Core) (latch : Option Instruction) (stats : Stats) (i : Instruction) :
    ({ c with latch, stats }.dispatch i).answer =
      ({ c with latch := none }.dispatch i).answer := by
  unfold dispatch
  dsimp only
  split_ifs <;> rfl

section
variable {c : Core} {source : List Instruction} {report : CycleReport}
  (h : (c.step source).outcome = .ok report)
include h

/-- What a cycle tells is what its report has. -/
theorem tells_report :
    Tells c.stats (c.step source).events (c.step source).core.stats
      (report.story (c.step source).core.latch) := by
  obtain ⟨l, hl, -, heq⟩ := c.tells_step source
  have hstory : c.toldBy source = report.story (c.step source).core.latch := by
    obtain ⟨issued, hi, ⟨ho, rfl, hcore⟩ | ⟨i, ho, ⟨reason, stats, ha, rfl, hcore⟩ |
      ⟨ha, -, rfl, hcore⟩⟩⟩ := step_ok_cases h
    · rw [toldBy, hi, ho, story_eq]
      rfl
    · rw [toldBy, hi, ho, hcore, Option.toList_some, List.flatMap_singleton, ha, story_eq]
      rfl
    · rw [toldBy, hi, ho, Option.toList_some, List.flatMap_singleton, ha, story_eq]
      rfl
  rwa [heq report h, hstory] at hl

theorem report_early :
    report.broadcast = c.bus.pending.map (·.tag) ∧
      report.retired = (c.step source).retired.map (·.tag) := by
  rw [c.step_retired source]
  obtain ⟨issued, -, ⟨-, rfl, -⟩ | ⟨i, -, ⟨reason, stats, -, rfl, -⟩ | ⟨-, -, rfl, -⟩⟩⟩ :=
    step_ok_cases h
  all_goals exact ⟨rfl, rfl⟩

theorem report_issued_pending : report.issued = (c.step source).core.bus.pending.map (·.tag) := by
  obtain ⟨issued, hi, ⟨-, rfl, hcore⟩ | ⟨i, -, ⟨reason, stats, -, rfl, hcore⟩ |
    ⟨-, -, rfl, hcore⟩⟩⟩ := step_ok_cases h
  all_goals
    rw [hcore]
    exact issued_eq_pending hi

/-- The entry that a report names has come to what stays in the buffer. -/
theorem report_dispatched :
    ∃ (kept : List ReorderBuffer.Entry) (entered : Option ReorderBuffer.Entry),
      ((c.step source).retired.toList ++ kept).map (·.key) = c.buffer.entries.map (·.key) ∧
      (c.step source).core.buffer.entries = kept ++ entered.toList ∧
      report.dispatched = entered.map (·.tag) := by
  have hkept := c.key_settled
  have hsame : c.settled.issue.core.buffer = c.settled.buffer := buffer_issue _
  rw [← c.step_retired source] at hkept
  obtain ⟨issued, -, ⟨-, rfl, hcore⟩ | ⟨i, -, ⟨reason, stats, -, rfl, hcore⟩ |
    ⟨-, hb, rfl, hcore⟩⟩⟩ := step_ok_cases h
  · refine ⟨_, none, hkept, ?_, rfl⟩
    rw [hcore, Option.toList_none, List.append_nil, ← hsame]
  · refine ⟨_, none, hkept, ?_, rfl⟩
    rw [hcore, Option.toList_none, List.append_nil, ← hsame]
  · refine ⟨_, some (.pending i.opcode i.tag), hkept, ?_, rfl⟩
    rw [hsame] at hb
    rw [hcore, install, hsame]
    exact c.settled.buffer.entries_push i.opcode i.tag hb

/-- The latch has what is held back, and would be held back again. -/
theorem report_stall :
    (report.stall = none ↔ (c.step source).core.latch = none) ∧
      ∀ i, (c.step source).core.latch = some i → c.offered source = some i ∧
        ((c.step source).core.dispatch i).answer = .ok report.stall := by
  obtain ⟨issued, -, ⟨-, rfl, hcore⟩ | ⟨i, ho, ⟨reason, stats, ha, rfl, hcore⟩ |
    ⟨-, -, rfl, hcore⟩⟩⟩ := step_ok_cases h
  · rw [hcore]
    exact ⟨⟨fun _ => rfl, fun _ => rfl⟩, nofun⟩
  · rw [hcore]
    refine ⟨⟨nofun, nofun⟩, fun j hj => ?_⟩
    obtain rfl := Option.some.inj hj
    -- holding it back has changed neither the station nor the buffer
    exact ⟨ho, (answer_dispatch _ _ _ _).trans ha⟩
  · rw [hcore]
    exact ⟨⟨fun _ => rfl, fun _ => rfl⟩, nofun⟩

end

end Core

/-! ## A run -/

namespace History

/-- The events of a call. -/
def events (h : History) : Call → List Event
  | .dispatch i => (h.core.dispatch i).events
  | .step source => (h.core.step source).events

/-- The events of a run. -/
def told (h : History) : List Call → List Event
  | [] => []
  | c :: calls => h.events c ++ (h.call c).told calls

theorem tells_call (h : History) (c : Call) :
    ∃ l, Tells h.core.stats (h.events c) (h.call c).core.stats l ∧ (l.map Prod.fst).Nodup := by
  cases c with
  | dispatch i =>
    refine ⟨_, h.core.tells_dispatch i, ?_⟩
    rcases (h.core.dispatch i).answer with e | _ | reason <;> simp [Core.toldLate]
  | step source =>
    obtain ⟨l, hl, hpart, -⟩ := h.core.tells_step source
    exact ⟨l, hl, (h.core.nodup_toldBy source).sublist (hpart.sublist.map _)⟩

/-- A run tells of an activity once in a call at most. -/
theorem tells_run (h : History) (calls : List Call) :
    ∃ l, Tells h.core.stats (h.told calls) (h.run calls).core.stats l ∧
      ∀ a, l.countP (·.1 = a) ≤ calls.length := by
  induction calls generalizing h with
  | nil => exact ⟨[], .nothing rfl fun _ => rfl, fun _ => Nat.le_refl 0⟩
  | cons c calls ih =>
    obtain ⟨l, hl, hnodup⟩ := h.tells_call c
    obtain ⟨m, hm, hle⟩ := ih (h.call c)
    refine ⟨l ++ m, hl.append hm, fun a => ?_⟩
    have hone : (l.map Prod.fst).count a ≤ 1 := List.nodup_iff_count_le_one.1 hnodup a
    have hcount : l.countP (·.1 = a) = (l.map Prod.fst).count a := by
      rw [List.count, List.countP_map]
      rfl
    have := hle a
    rw [List.countP_append, List.length_cons]
    omega

/-- No counter gets ahead of the calls. -/
theorem tally_run_le (h : History) (calls : List Call) (a : Activity) :
    (h.run calls).core.stats.tally a ≤ h.core.stats.tally a + calls.length := by
  obtain ⟨l, hl, hle⟩ := h.tells_run calls
  rw [hl.counted]
  exact Nat.add_le_add_left (hle a) _

/-- A counter is the number of events with its message. -/
theorem tally_eq_messages (h : History) (calls : List Call) (a : Activity) :
    (h.run calls).core.stats.tally a =
      h.core.stats.tally a + (h.told calls).countP (·.message = a.message) := by
  obtain ⟨l, hl, -⟩ := h.tells_run calls
  have hlength := congrArg List.length (Event.filter_message (h.told calls) a)
  rw [List.length_map, List.length_map, hl.told] at hlength
  rw [hl.counted, List.countP_eq_length_filter, List.countP_eq_length_filter, hlength]

end History

/-- In every state that any calls lead to, and for every cycle that reports, its report, its
counters, its events, the retired entry and the structures of the core say the same. The report
names the result that was on the bus before and the one that is there after, the entry that was
handed over, and the entry that came to those that stayed in the buffer. It gives a reason for a
stall just if the latch is left with an instruction, and for that reason the instruction would be
held back again. For each of these the counter has grown by one and one event tells of it, with the
tag, which its field shows in brackets, or neither. No counter has come further than one for each
call. -/
theorem reports_told {config : Config} (valid : config.validate = .ok ()) :
    ∃ core, Core.ofConfig config = .ok core ∧
      ∀ calls source report,
        let start := History.start core
        let c := (start.run calls).core
        let x := c.step source
        x.outcome = .ok report →
          report.broadcast = c.bus.pending.map (·.tag) ∧
          report.retired = x.retired.map (·.tag) ∧
          report.issued = x.core.bus.pending.map (·.tag) ∧
          (∃ (kept : List ReorderBuffer.Entry) (entered : Option ReorderBuffer.Entry),
            (x.retired.toList ++ kept).map (·.key) = c.buffer.entries.map (·.key) ∧
              x.core.buffer.entries = kept ++ entered.toList ∧
              report.dispatched = entered.map (·.tag)) ∧
          (report.stall = none ↔ x.core.latch = none) ∧
          (∀ i, x.core.latch = some i → c.offered source = some i ∧
            (x.core.dispatch i).answer = .ok report.stall) ∧
          ∀ a,
            let tag? := report.tag? x.core.latch a
            x.core.stats.tally a = c.stats.tally a + tag?.toList.length ∧
            (x.events.filterMap Event.tells).filter (·.1 = a) = tag?.toList.map (a, ·) ∧
            (x.events.filter (·.message = a.message)).map (·.fields.lookup "tag") =
              tag?.toList.map (fun t => some (.text ("[" ++ toString t.index ++ "]"))) ∧
            x.core.stats.tally a ≤ calls.length + 1 := by
  obtain ⟨core, hcore, hf⟩ := Core.ofConfig_fresh valid
  refine ⟨core, hcore, ?_⟩
  intro calls source report start c x h
  obtain ⟨hstall, hlatch⟩ := Core.report_stall h
  have htells : Tells c.stats x.events x.core.stats (report.story x.core.latch) :=
    Core.tells_report h
  obtain ⟨hbroadcast, hretired⟩ := Core.report_early h
  refine ⟨hbroadcast, hretired, Core.report_issued_pending h, Core.report_dispatched h, hstall,
    hlatch, ?_⟩
  intro a tag?
  have hstory := report.filter_story x.core.latch a
  have hgrown : x.core.stats.tally a = c.stats.tally a + tag?.toList.length := by
    rw [htells.counted, List.countP_eq_length_filter, hstory, List.length_map]
  have htold : (x.events.filterMap Event.tells).filter (·.1 = a) = tag?.toList.map (a, ·) := by
    rw [htells.told, hstory]
  refine ⟨hgrown, htold, ?_, ?_⟩
  · rw [Event.filter_message, htold, List.map_map]
    rfl
  · have hbefore : c.stats.tally a ≤ start.core.stats.tally a + calls.length :=
      start.tally_run_le calls a
    have hzero : start.core.stats.tally a = 0 := by
      rw [show start.core.stats = {} from hf.stats]
      rcases a with _ | _ | _ | _ | (_ | _) <;> rfl
    have hone : tag?.toList.length ≤ 1 := by cases tag? <;> simp
    omega

/-- In one cycle a result is broadcast, an entry retires, nothing is issued, and an instruction is
held back. -/
theorem reports_told_stalled :
    ∃ core, Core.ofConfig { stationEntries := 1 } = .ok core ∧
      let i n a := Instruction.of (.alu .add) n a (.ready 3) (.ready 0)
      let calls := [.dispatch (i 0 (.ready 2)), .step [i 1 (.waitingOn ⟨9⟩)]]
      let source := [i 2 (.ready 4)]
      let c := ((History.start core).run calls).core
      let messages a :=
        ((c.step source).events.filter (·.message = Activity.message a)).map (·.fields.lookup "tag")
      (c.step source).outcome = .ok ⟨2, some ⟨0⟩, some ⟨0⟩, none, none, some .stationFull⟩ ∧
        c.bus.pending = some ⟨⟨0⟩, ⟨5, 0⟩⟩ ∧ (c.step source).core.bus.pending = none ∧
        (c.step source).core.latch = some (i 2 (.ready 4)) ∧
        c.stats.stationStalls = 0 ∧ (c.step source).core.stats.stationStalls = 1 ∧
        c.stats.issued = 1 ∧ (c.step source).core.stats.issued = 1 ∧
        (c.step source).events.filterMap Event.tells =
          [(.broadcast, ⟨0⟩), (.retirement, ⟨0⟩), (.stall .stationFull, ⟨2⟩)] ∧
        messages (.stall .stationFull) = [some (.text "[2]")] ∧ messages .issue = [] := by
  obtain ⟨core, hc, hl⟩ :=
    reports_told (show Config.validate { stationEntries := 1 } = .ok () by decide)
  obtain rfl := Except.ok.inj (hc.symm.trans rfl)
  refine ⟨_, hc, ?_⟩
  intro i calls source c messages
  have hout : (c.step source).outcome =
      .ok ⟨2, some ⟨0⟩, some ⟨0⟩, none, none, some .stationFull⟩ := by decide +kernel
  have hlatch : (c.step source).core.latch = some (i 2 (.ready 4)) := by decide +kernel
  obtain ⟨-, -, -, -, -, -, hall⟩ := hl calls source _ hout
  have hstall : CycleReport.tag? ⟨2, some ⟨0⟩, some ⟨0⟩, none, none, some .stationFull⟩
      (c.step source).core.latch (.stall .stationFull) = some ⟨2⟩ := by
    rw [hlatch]
    rfl
  have htold := (hall (.stall .stationFull)).2.2.1
  rw [hstall] at htold
  have htext : "[" ++ toString (Tag.index ⟨2⟩) ++ "]" = "[2]" := by decide +kernel
  rw [Option.toList_some, List.map_singleton, htext] at htold
  exact ⟨hout, by decide +kernel, by decide +kernel, hlatch, by decide +kernel, by decide +kernel,
    by decide +kernel, by decide +kernel, by decide +kernel, htold, (hall .issue).2.2.1⟩

end OutOfOrder
