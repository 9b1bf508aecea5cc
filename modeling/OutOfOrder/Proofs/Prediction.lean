import Mathlib
import OutOfOrder.Proofs.Symmetry

/-!
# The predictor looks on

A branch computes whether it is taken, not whether that was foreseen. So where the predictor starts
and whether events are traced makes no difference to anything but the predictor itself and the two
counters that tell right predictions from wrong ones; their sum is the same again
(`prediction_unseen`).

`plain` leaves out of a core what may differ. Each phase answers alike for a core and for the plain
one, and the cores that it leaves are the same again when they are plain. Two cores with the same
plain core therefore go the same way (`Core.step_plain`, `History.run_plain`).
-/

namespace OutOfOrder

/-- The counters with the branches counted together, however they were predicted. -/
def Stats.plain (s : Stats) : Stats :=
  { s with predicted := s.predicted + s.mispredicted, mispredicted := 0 }

/-- Counters that are the same apart from how branches were predicted. -/
theorem Stats.eq_of_plain {s s' : Stats} (h : s.plain = s'.plain) :
    s' = { s with predicted := s'.predicted, mispredicted := s'.mispredicted } ∧
      s'.predicted + s'.mispredicted = s.predicted + s.mispredicted := by
  cases s
  cases s'
  simp only [plain, Stats.mk.injEq] at h ⊢
  grind

namespace Core

/-- The core without its predictor, and not traced. -/
def plain (c : Core) : Core :=
  { c with predictor := .zero, tracing := false, stats := c.stats.plain }

/-! ## Phases -/

theorem dispatch_plain (c : Core) (i : Instruction) :
    c.plain.dispatch i =
      ⟨(c.dispatch i).core.plain, (c.dispatch i).answer, (c.dispatch i).events⟩ := by
  cases hd : i.opcode.decode with
  | none => rw [dispatch_refused hd, dispatch_refused hd]
  | some op =>
    have hd : i.opcode.decode.isSome = true := by rw [hd]; rfl
    cases hs : c.station.isFull with
    | true =>
      rw [dispatch_stationFull hd hs, dispatch_stationFull (c := c.plain) hd hs]
      rfl
    | false =>
      cases hb : c.buffer.isFull with
      | true =>
        rw [dispatch_bufferFull hd hs hb, dispatch_bufferFull (c := c.plain) hd hs hb]
        rfl
      | false =>
        rw [dispatch_room hd hs hb, dispatch_room (c := c.plain) hd hs hb]
        rfl

theorem deliver_plain (c : Core) :
    c.plain.deliver = ⟨c.deliver.core.plain, c.deliver.answer, c.deliver.events⟩ := by
  cases h : c.bus.pending with
  | none => rw [deliver_idle h, deliver_idle (c := c.plain) h]
  | some r =>
    rw [deliver_busy h, deliver_busy (c := c.plain) h]
    rfl

theorem retire_plain (c : Core) :
    c.plain.retire = ⟨c.retire.core.plain, c.retire.answer, c.retire.events⟩ := by
  have hb : c.plain.buffer = c.buffer := rfl
  unfold retire
  rw [hb]
  split
  · rfl
  · split <;> rfl

/-- A branch is counted once, whether it was predicted or not. -/
theorem plain_settled (s : Stats) (missed : Bool) :
    (if missed then { s with mispredicted := s.mispredicted + 1 }
      else { s with predicted := s.predicted + 1 }).plain =
        { s.plain with predicted := s.plain.predicted + 1 } := by
  cases missed with
  | false => simp [Stats.plain, Nat.add_right_comm]
  | true => simp [Stats.plain, Nat.add_assoc]

theorem execute_plain (c : Core) (op : Operation) (r : Request) :
    (c.plain.execute op r).core.plain = (c.execute op r).core.plain := by
  cases op with
  | alu op => rfl
  | branch condition =>
    have hcounted : ∀ d : Core, (d.execute (.branch condition) r).core.plain =
        { d.plain with
          stats :=
            { d.stats.plain with
              branchIssued := d.stats.branchIssued + 1
              predicted := d.stats.plain.predicted + 1 } } := fun d =>
      congrArg (fun stats => { d.plain with stats })
        (plain_settled { d.stats with branchIssued := d.stats.branchIssued + 1 }
          (d.predictor.resolve condition r.operands.f).1.mispredicted)
    rw [hcounted, hcounted]
    rfl

theorem issue_plain (c : Core) :
    c.plain.issue.core.plain = c.issue.core.plain ∧ c.plain.issue.answer = c.issue.answer ∧
      c.plain.issue.events.filterMap Event.request? = c.issue.events.filterMap Event.request? := by
  cases ho : c.station.oldestReady with
  | none =>
    have hi : c.station.issue = none := by rw [Station.issue, ho]; rfl
    rw [issue_none hi, issue_none (c := c.plain) hi]
    exact ⟨rfl, rfl, rfl⟩
  | some p =>
    obtain ⟨e, n⟩ := p
    cases hd : e.opcode.decode with
    | none =>
      rw [issue_refused ho hd, issue_refused (c := c.plain) ho hd]
      exact ⟨rfl, rfl, rfl⟩
    | some op =>
      rw [issue_sent ho hd, issue_sent (c := c.plain) ho hd]
      have hdone := execute_plain { c with station := c.station.release e n } op e.request
      refine ⟨?_, rfl, ?_⟩
      · simp only [execute_answer]
        exact congrArg (fun d : Core => d.sent ⟨e.tag, op.outcome e.operands.values⟩) hdone
      · simp only [List.filterMap_cons, Event.request?, requests_execute]

theorem settled_plain (c : Core) : c.plain.settled = c.settled.plain := by
  have hbegun : c.plain.begun = c.begun.plain := rfl
  rw [settled, settled, hbegun, deliver_plain, retire_plain]

theorem dispatchLatched_plain (c : Core) :
    c.plain.dispatchLatched =
      ⟨c.dispatchLatched.core.plain, c.dispatchLatched.answer, c.dispatchLatched.events⟩ := by
  have hlatch : c.plain.latch = c.latch := rfl
  unfold dispatchLatched
  rw [hlatch]
  cases c.latch with
  | none => rfl
  | some i =>
    have hd : { c.plain with latch := none }.dispatch i = _ :=
      dispatch_plain { c with latch := none } i
    dsimp only
    rw [hd]
    dsimp only
    cases ({ c with latch := none }.dispatch i).answer with
    | error e => rfl
    | ok stall => cases stall <;> rfl

theorem late_plain (c : Core) (source : List Instruction) :
    (c.plain.late source).core.plain = (c.late source).core.plain ∧
      (c.plain.late source).answer = (c.late source).answer := by
  have hfetched : { c.plain.settled.issue.core with latch := c.plain.offered source }.plain =
      { c.settled.issue.core with latch := c.offered source }.plain := by
    rw [settled_plain]
    exact congrArg (fun d : Core => { d with latch := c.offered source }) c.settled.issue_plain.1
  have hlate := dispatchLatched_plain { c.settled.issue.core with latch := c.offered source }
  rw [← hfetched, dispatchLatched_plain] at hlate
  obtain ⟨hcore, hanswer, -⟩ := After.mk.inj hlate
  exact ⟨hcore, hanswer⟩

/-! ## Cycles -/

/-- A cycle of a core and one of the plain core take and retire the same, end alike, and leave the
same core behind when it is plain. -/
theorem step_plain (c : Core) (source : List Instruction) :
    (c.plain.step source).core.plain = (c.step source).core.plain ∧
      (c.plain.step source).source = (c.step source).source ∧
      (c.plain.step source).outcome = (c.step source).outcome ∧
      (c.plain.step source).retired = (c.step source).retired ∧
      (c.plain.step source).issued = (c.step source).issued := by
  obtain ⟨hissue, hanswer, hrequests⟩ := c.settled.issue_plain
  rw [← settled_plain] at hissue hanswer hrequests
  obtain ⟨hlate, hdispatch⟩ := c.late_plain source
  have hdelivered : c.plain.begun.deliver.core = c.begun.deliver.core.plain :=
    congrArg After.core c.begun.deliver_plain
  have hretired : c.plain.begun.deliver.core.retire.answer =
      c.begun.deliver.core.retire.answer := by
    rw [hdelivered, retire_plain]
  suffices hmain : (c.plain.step source).core.plain = (c.step source).core.plain ∧
      (c.plain.step source).source = (c.step source).source ∧
      (c.plain.step source).outcome = (c.step source).outcome by
    obtain ⟨hcore, hsource, houtcome⟩ := hmain
    refine ⟨hcore, hsource, houtcome, ?_, ?_⟩
    · rw [step_retired, step_retired, hretired]
    · rw [step_issued, step_issued, hrequests]
  cases hi : c.settled.issue.answer with
  | error e =>
    rw [hi] at hanswer
    rw [step_eq, step_eq, hi, hanswer]
    exact ⟨hissue, rfl, rfl⟩
  | ok tag =>
    rw [hi] at hanswer
    cases hl : (c.late source).answer with
    | error e =>
      rw [hl] at hdispatch
      rw [step_eq, step_eq, hi, hanswer]
      dsimp only
      rw [hl, hdispatch]
      exact ⟨hlate, rfl, rfl⟩
    | ok p =>
      obtain ⟨entered, stall⟩ := p
      rw [hl] at hdispatch
      obtain ⟨hout, hcore, hsrc⟩ := step_ok hi hl (cycles_late c source)
      obtain ⟨hout', hcore', hsrc'⟩ := step_ok hanswer hdispatch (cycles_late c.plain source)
      have hreport : c.plain.report tag entered stall = c.report tag entered stall := by
        rw [report, report, hretired]
        rfl
      rw [hout, hout', hcore, hcore', hsrc, hsrc', hreport]
      exact ⟨hlate, rfl, rfl⟩

/-- Nothing has been asked of either core, and the configurations agree on all that is not left
out. -/
theorem Fresh.plain_eq {config : Config} {state : Nat} {tracing : Bool} {c c' : Core}
    (h : c.Fresh config)
    (h' : c'.Fresh { config with predictorState := state, tracing := tracing }) :
    c.plain = c'.plain := by
  have htags : c.tags = c'.tags := Except.ok.inj (h.tags.symm.trans h'.tags)
  simp only [plain, h.station, h'.station, h.buffer, h'.buffer, h.bus, h'.bus, h.committed,
    h'.committed, h.latch, h'.latch, h.stats, h'.stats, htags]

end Core

/-! ## Runs -/

namespace History

def plain (h : History) : History := { h with core := h.core.plain }

theorem call_plain (h : History) (c : Call) : (h.plain.call c).plain = (h.call c).plain := by
  cases c with
  | dispatch i =>
    simp only [call, plain, Core.dispatch_plain]
    rfl
  | step source =>
    obtain ⟨hcore, -, houtcome, hretired, hissued⟩ := h.core.step_plain source
    have hinstalls : (h.core.plain.step source).installs = (h.core.step source).installs := by
      rw [Core.Cycle.installs, houtcome]
      rfl
    have hoffered : h.core.plain.offered source = h.core.offered source := rfl
    simp only [call, plain, hcore, hretired, hissued, hinstalls, hoffered]

theorem run_plain (h : History) (calls : List Call) :
    (h.plain.run calls).plain = (h.run calls).plain := by
  induction calls generalizing h with
  | nil => rfl
  | cons c calls ih =>
    calc ((h.plain.call c).run calls).plain
        = ((h.plain.call c).plain.run calls).plain := (ih _).symm
      _ = ((h.call c).plain.run calls).plain := by rw [h.call_plain]
      _ = ((h.call c).run calls).plain := ih _

end History

/-- Two configurations that differ in where the predictor starts and in whether events are traced
make cores that go the same way: after the same calls, the same instructions have been installed,
issued and retired, the structures are equal, and so are all counters, but that a branch may have
been predicted by the one and not by the other. Every further call has the same answer for both. -/
theorem prediction_unseen {config : Config} {state : Nat} {tracing : Bool}
    (valid : config.validate = .ok ())
    (valid' : { config with predictorState := state, tracing := tracing }.validate = .ok ()) :
    ∃ core core', Core.ofConfig config = .ok core ∧
      Core.ofConfig { config with predictorState := state, tracing := tracing } = .ok core' ∧
      ∀ calls,
        let h := (History.start core).run calls
        let h' := (History.start core').run calls
        h'.core.station = h.core.station ∧ h'.core.buffer = h.core.buffer ∧
        h'.core.bus = h.core.bus ∧ h'.core.committed = h.core.committed ∧
        h'.core.latch = h.core.latch ∧
        h'.core.stats =
          { h.core.stats with
            predicted := h'.core.stats.predicted
            mispredicted := h'.core.stats.mispredicted } ∧
        h'.core.stats.predicted + h'.core.stats.mispredicted =
          h.core.stats.predicted + h.core.stats.mispredicted ∧
        h'.installed = h.installed ∧ h'.issued = h.issued ∧ h'.retired = h.retired ∧
        (∀ i, (h'.core.dispatch i).answer = (h.core.dispatch i).answer) ∧
        ∀ source,
          let x := h.core.step source
          let x' := h'.core.step source
          x'.outcome = x.outcome ∧ x'.source = x.source ∧ x'.retired = x.retired := by
  obtain ⟨core, hcore, hf⟩ := Core.ofConfig_fresh valid
  obtain ⟨core', hcore', hf'⟩ := Core.ofConfig_fresh valid'
  refine ⟨core, core', hcore, hcore', ?_⟩
  intro calls h h'
  have hplain : h.plain = h'.plain :=
    calc h.plain
        = ((History.start core.plain).run calls).plain := ((History.start core).run_plain calls).symm
      _ = ((History.start core'.plain).run calls).plain := by rw [hf.plain_eq hf']
      _ = h'.plain := (History.start core').run_plain calls
  obtain ⟨hcores, hinstalled, hissued, hretired⟩ := History.mk.inj hplain
  obtain ⟨hstation, hbuffer, hbus, hcommitted, -, hlatch, -, hstats⟩ := Core.mk.inj hcores
  obtain ⟨hcounters, hsum⟩ := Stats.eq_of_plain hstats
  refine ⟨hstation.symm, hbuffer.symm, hbus.symm, hcommitted.symm, hlatch.symm, hcounters, hsum,
    hinstalled.symm, hissued.symm, hretired.symm, ?_, ?_⟩
  · intro i
    have hd := h.core.dispatch_plain i
    rw [hcores, Core.dispatch_plain] at hd
    exact (Core.After.mk.inj hd).2.1
  · intro source x x'
    obtain ⟨-, hsource, houtcome, hretired, -⟩ := h.core.step_plain source
    obtain ⟨-, hsource', houtcome', hretired', -⟩ := h'.core.step_plain source
    rw [hcores] at hsource houtcome hretired
    exact ⟨houtcome'.symm.trans houtcome, hsource'.symm.trans hsource,
      hretired'.symm.trans hretired⟩

/-- Three branches are taken. From the lowest state the first two come as a surprise, from the
highest none does; what they compute, and the sum that waits for it, is the same. -/
theorem prediction_unseen_branches :
    ∃ core core', Core.ofConfig {} = .ok core ∧
      Core.ofConfig { predictorState := 3, tracing := true } = .ok core' ∧
      let i n := Instruction.of (.branch .always) n (.ready 0) (.ready 0) (.ready 0)
      let sum := Instruction.of (.alu .add) 3 (.waitingOn ⟨1⟩) (.waitingOn ⟨2⟩) (.ready 0)
      let calls := [.dispatch (i 0), .step [i 1], .step [i 2], .step [sum], .step [], .step []]
      let h := (History.start core).run calls
      let h' := (History.start core').run calls
      (h.core.stats.predicted, h.core.stats.mispredicted) = (1, 2) ∧
        (h'.core.stats.predicted, h'.core.stats.mispredicted) = (3, 0) ∧
        h.retired.map (·.outcome.value) = [1, 1, 1, 2] ∧ h'.retired = h.retired ∧
        h'.core.committed = h.core.committed := by
  obtain ⟨core, core', hc, hc', hl⟩ := @prediction_unseen {} 3 true (by decide) (by decide)
  obtain rfl := Except.ok.inj (hc.symm.trans rfl)
  obtain rfl := Except.ok.inj (hc'.symm.trans rfl)
  refine ⟨_, _, hc, hc', ?_⟩
  intro i sum calls h h'
  obtain ⟨-, -, -, hcommitted, -, -, -, -, -, hretired, -⟩ := hl calls
  exact ⟨by decide +kernel, by decide +kernel, by decide +kernel, hretired, hcommitted⟩

end OutOfOrder
