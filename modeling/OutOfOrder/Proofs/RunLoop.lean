import Mathlib
import OutOfOrder.Proofs.Feed

/-!
# The loop of a run

A run goes on cycle by cycle until nothing is left to do, the limit is reached or a cycle fails.
`Simulator.Runs` says so as a relation between the simulator before and after, with the reports and
the outcome in between, and `Simulator.runs_run` says that the run is its one instance: so it ends,
whatever the core and the program are (`run_contract`).

What a run comes to is then proved along its cycles. It can be interrupted after any of them and
taken up again (`Runs.resume`), and a run that did not fail has nothing more to do (`Runs.again`).
-/

namespace OutOfOrder

theorem Core.cycle_of_step_ok {c : Core} {source : List Instruction} {report : CycleReport}
    (h : (c.step source).outcome = .ok report) : report.cycle = c.stats.cycles + 1 := by
  rw [Core.step_eq] at h
  split at h
  · cases h
  · dsimp only at h
    split at h
    · cases h
    · cases h
      exact c.cycles_late source

namespace Simulator

/-! ## Cycles -/

@[simp] theorem cycles_tick (s : Simulator) : s.tick.simulator.cycles = s.cycles + 1 :=
  Core.cycles_step _ _

@[simp] theorem maxCycles_tick (s : Simulator) : s.tick.simulator.maxCycles = s.maxCycles := rfl

/-- The first of some cycles comes before the others. -/
theorem after_succ (s : Simulator) (n : Nat) : s.after (n + 1) = s.tick.simulator.after n := by
  induction n with
  | zero => rfl
  | succ n ih => rw [after, ih, after]

@[simp] theorem cycles_after (s : Simulator) (n : Nat) : (s.after n).cycles = s.cycles + n := by
  induction n with
  | zero => rfl
  | succ n ih => rw [after, cycles_tick, ih, Nat.add_assoc]

@[simp] theorem maxCycles_after (s : Simulator) (n : Nat) :
    (s.after n).maxCycles = s.maxCycles := by
  induction n with
  | zero => rfl
  | succ n ih => rw [after, maxCycles_tick, ih]

/-- In each of the first `k` cycles there is something left to do, and none of them fails. -/
def Advances (s : Simulator) (k : Nat) : Prop :=
  ∀ j < k, (s.after j).isFinished = false ∧ ∃ report, (s.after j).tick.outcome = .ok report

/-! ## The loop -/

/-- From here, cycles with these reports lead to the outcome and leave the simulator as given. -/
inductive Runs : Simulator → List CycleReport → Except SimulatorError Nat → Simulator → Prop
  | finished {s : Simulator} (h : s.isFinished = true) : Runs s [] (.ok s.cycles) s
  | limit {s : Simulator} (h : s.isFinished = false) (hl : s.maxCycles ≤ s.cycles) :
      Runs s [] (.error (.cycleLimit s.cycles)) s
  | failed {s : Simulator} {e : CoreError} (h : s.isFinished = false) (hl : s.cycles < s.maxCycles)
      (ho : s.tick.outcome = .error e) : Runs s [] (.error (.core e)) s.tick.simulator
  | next {s t : Simulator} {report : CycleReport} {reports : List CycleReport}
      {outcome : Except SimulatorError Nat} (h : s.isFinished = false)
      (hl : s.cycles < s.maxCycles) (ho : s.tick.outcome = .ok report)
      (hr : Runs s.tick.simulator reports outcome t) : Runs s (report :: reports) outcome t

/-! ### A run is an instance of the loop -/

section
variable {s : Simulator} {budget : Nat} {reports : Array CycleReport} {events : Array Event}

theorem runFor_finished (h : s.isFinished = true) :
    s.runFor budget reports events =
      ⟨s, .ok s.cycles, reports, events.push (.finished s.cycles s.retired.size)⟩ := by
  unfold runFor
  rw [if_pos h]

theorem runFor_zero (h : s.isFinished = false) :
    s.runFor 0 reports events = ⟨s, .error (.cycleLimit s.cycles), reports, events⟩ := by
  unfold runFor
  simp [h]

theorem runFor_failed (h : s.isFinished = false) {e : CoreError}
    (ho : s.tick.outcome = .error e) :
    s.runFor (budget + 1) reports events =
      ⟨s.tick.simulator, .error (.core e), reports, events ++ s.tick.events⟩ := by
  rw [runFor]
  simp [h, ho]

theorem runFor_next (h : s.isFinished = false) {report : CycleReport}
    (ho : s.tick.outcome = .ok report) :
    s.runFor (budget + 1) reports events =
      s.tick.simulator.runFor budget (reports.push report) (events ++ s.tick.events) := by
  rw [runFor]
  simp [h, ho]

end

/-- As many cycles as are left below the limit are enough to see a run end. -/
theorem runs_runFor (budget : Nat) {s : Simulator} (hb : budget = s.maxCycles - s.cycles)
    (reports : Array CycleReport) (events : Array Event) :
    ∃ more, (s.runFor budget reports events).reports.toList = reports.toList ++ more ∧
      s.Runs more (s.runFor budget reports events).outcome
        (s.runFor budget reports events).simulator := by
  induction budget generalizing s reports events with
  | zero =>
    cases hf : s.isFinished with
    | true =>
      rw [runFor_finished hf]
      exact ⟨[], by simp, .finished hf⟩
    | false =>
      rw [runFor_zero hf]
      exact ⟨[], by simp, .limit hf (by omega)⟩
  | succ budget ih =>
    cases hf : s.isFinished with
    | true =>
      rw [runFor_finished hf]
      exact ⟨[], by simp, .finished hf⟩
    | false =>
      have hl : s.cycles < s.maxCycles := by omega
      cases ho : s.tick.outcome with
      | error e =>
        rw [runFor_failed hf ho]
        exact ⟨[], by simp, .failed hf hl ho⟩
      | ok report =>
        rw [runFor_next hf ho]
        obtain ⟨more, hmore, hruns⟩ := ih (s := s.tick.simulator)
          (by rw [cycles_tick, maxCycles_tick]; omega) (reports.push report)
          (events ++ s.tick.events)
        exact ⟨report :: more, by simpa using hmore, .next hf hl ho hruns⟩

/-- A run ends. -/
theorem runs_run (s : Simulator) : s.Runs s.run.reports.toList s.run.outcome s.run.simulator := by
  obtain ⟨more, hmore, hruns⟩ := runs_runFor _ (Eq.refl (s.maxCycles - s.cycles)) #[] #[]
  rw [List.nil_append] at hmore
  rwa [run, hmore]

namespace Runs

variable {s t : Simulator} {reports : List CycleReport}

section
variable {outcome : Except SimulatorError Nat} (h : s.Runs reports outcome t)
include h

/-- There is one way for a run to go. -/
theorem runFor_eq {budget : Nat} (hb : budget = s.maxCycles - s.cycles)
    (before : Array CycleReport) (events : Array Event) :
    (s.runFor budget before events).reports.toList = before.toList ++ reports ∧
      (s.runFor budget before events).outcome = outcome ∧
      (s.runFor budget before events).simulator = t := by
  induction h generalizing budget before events with
  | finished hf =>
    rw [runFor_finished hf]
    exact ⟨by simp, rfl, rfl⟩
  | limit hf hl =>
    -- at the limit nothing is left of the budget, and below it something is
    obtain rfl : budget = 0 := by omega
    rw [runFor_zero hf]
    exact ⟨by simp, rfl, rfl⟩
  | failed hf hl ho =>
    obtain ⟨n, rfl⟩ : ∃ n, budget = n + 1 := ⟨budget - 1, by omega⟩
    rw [runFor_failed hf ho]
    exact ⟨by simp, rfl, rfl⟩
  | @next s _ report _ _ hf hl ho _ ih =>
    obtain ⟨n, rfl⟩ : ∃ n, budget = n + 1 := ⟨budget - 1, by omega⟩
    rw [runFor_next hf ho]
    have hn : n = s.tick.simulator.maxCycles - s.tick.simulator.cycles := by
      rw [cycles_tick, maxCycles_tick]
      omega
    simpa using ih hn (before.push report) (events ++ s.tick.events)

theorem run_eq :
    s.run.reports.toList = reports ∧ s.run.outcome = outcome ∧ s.run.simulator = t := by
  obtain ⟨hreports, houtcome, ht⟩ := h.runFor_eq rfl #[] #[]
  exact ⟨hreports.trans (List.nil_append _), houtcome, ht⟩

/-! ### Along the cycles -/

/-- After some of its cycles a run goes on as it would have. -/
theorem resume {k : Nat} (hk : k ≤ reports.length) :
    (s.after k).Runs (reports.drop k) outcome t := by
  induction h generalizing k with
  | finished hf =>
    obtain rfl := Nat.le_zero.1 hk
    exact .finished hf
  | limit hf hl =>
    obtain rfl := Nat.le_zero.1 hk
    exact .limit hf hl
  | failed hf hl ho =>
    obtain rfl := Nat.le_zero.1 hk
    exact .failed hf hl ho
  | next hf hl ho hr ih =>
    cases k with
    | zero => exact .next hf hl ho hr
    | succ k =>
      rw [after_succ, List.drop_succ_cons]
      exact ih (Nat.le_of_succ_le_succ hk)

/-- Each cycle begins with something left to do and below the limit, and has its report. -/
theorem cycle {j : Nat} (hj : j < reports.length) :
    (s.after j).isFinished = false ∧ s.cycles + j < s.maxCycles ∧
      (s.after j).tick.outcome = .ok reports[j] := by
  have hr := h.resume hj.le
  rw [List.drop_eq_getElem_cons hj] at hr
  cases hr with
  | next hf hl ho _ => exact ⟨hf, by simpa using hl, ho⟩

/-- The limit stops a run before the count goes over it. -/
theorem cycles_le : t.cycles ≤ max s.cycles s.maxCycles := by
  induction h with
  | finished hf => exact Nat.le_max_left _ _
  | limit hf hl => exact Nat.le_max_left _ _
  | failed hf hl ho =>
    rw [cycles_tick]
    omega
  | next hf hl ho hr ih =>
    rw [cycles_tick, maxCycles_tick] at ih
    omega

/-- What a run comes to, by the state after its cycles. -/
theorem last : (s.after reports.length).Runs [] outcome t := by
  simpa using h.resume (Nat.le_refl reports.length)

/-- A run that did not fail has nothing more to do. -/
theorem again (hok : ∀ e, outcome ≠ .error (.core e)) : t.Runs [] outcome t := by
  have hl := h.last
  cases hl with
  | finished hf => exact .finished hf
  | limit hf hl => exact .limit hf hl
  | failed hf hl ho => exact absurd rfl (hok _)

theorem advances : s.Advances reports.length := fun _ hj =>
  have hc := h.cycle hj
  ⟨hc.1, _, hc.2.2⟩

end

/-! ### The three ends -/

theorem of_ok {c : Nat} (h : s.Runs reports (.ok c) t) :
    t = s.after reports.length ∧ t.isFinished = true ∧ c = t.cycles := by
  have hl := h.last
  cases hl with
  | finished hf => exact ⟨rfl, hf, rfl⟩

theorem of_cycleLimit {c : Nat} (h : s.Runs reports (.error (.cycleLimit c)) t) :
    t = s.after reports.length ∧ t.isFinished = false ∧ c = t.cycles ∧
      c = max s.cycles s.maxCycles := by
  have hle := h.cycles_le
  have hl := h.last
  cases hl with
  | limit hf hl =>
    refine ⟨rfl, hf, rfl, ?_⟩
    rw [cycles_after] at hle hl ⊢
    rw [maxCycles_after] at hl
    omega

theorem of_core {e : CoreError} (h : s.Runs reports (.error (.core e)) t) :
    t = s.after (reports.length + 1) ∧ (s.after reports.length).isFinished = false ∧
      (s.after reports.length).tick.outcome = .error e := by
  have hl := h.last
  cases hl with
  | failed hf hl ho => exact ⟨rfl, hf, ho⟩

end Runs

/-- A run gets to the first state in which nothing is left to do, the limit permitting. -/
theorem runs_of_finished {s : Simulator} {k : Nat} (ha : s.Advances k)
    (hf : (s.after k).isFinished = true) (hl : k = 0 ∨ s.cycles + k ≤ s.maxCycles) :
    ∃ reports, s.Runs reports (.ok (s.cycles + k)) (s.after k) := by
  induction k generalizing s with
  | zero => exact ⟨[], .finished hf⟩
  | succ k ih =>
    obtain ⟨hf0, report, ho⟩ := ha 0 (Nat.zero_lt_succ k)
    have hnext : s.tick.simulator.Advances k := by
      intro j hj
      rw [← after_succ]
      exact ha (j + 1) (Nat.succ_lt_succ hj)
    rw [after_succ] at hf ⊢
    obtain ⟨reports, hr⟩ := ih hnext hf (.inr (by rw [cycles_tick, maxCycles_tick]; omega))
    rw [cycles_tick, Nat.add_right_comm, Nat.add_assoc] at hr
    exact ⟨report :: reports, .next hf0 (show s.cycles < s.maxCycles by omega) ho hr⟩

end Simulator

/-- A run goes through its loop to an end. It has one report for each cycle that did not fail, and
their numbers go on from the count before. It finishes exactly if nothing is left to do after some
number of cycles that do not fail and do not go over the limit, or if there was nothing to do from
the first, and the outcome is then the count of cycles. Otherwise it stops with something left to do
when the count is at or over the limit, or with the error of the first cycle that fails. It does not
count beyond the limit, so a word that holds both the limit and the first count holds all of them.
When a run that did not fail is run again, the outcome is the same and nothing changes; and a run
that is taken up after any number of its cycles comes to the same outcome and end. -/
theorem run_contract (s : Simulator) :
    let r := s.run
    let n := r.reports.size
    s.Runs r.reports.toList r.outcome r.simulator ∧
      (∀ (j : Nat) (h : j < n), (s.after j).isFinished = false ∧
        (s.after j).tick.outcome = .ok r.reports[j] ∧ r.reports[j].cycle = s.cycles + j + 1) ∧
      (∀ c, r.outcome = .ok c ↔ ∃ k, s.Advances k ∧ (s.after k).isFinished = true ∧
        (k = 0 ∨ s.cycles + k ≤ s.maxCycles) ∧ c = s.cycles + k) ∧
      (∀ c, r.outcome = .ok c → r.simulator = s.after n ∧ c = r.simulator.cycles) ∧
      (∀ c, r.outcome = .error (.cycleLimit c) → r.simulator = s.after n ∧
        r.simulator.isFinished = false ∧ c = max s.cycles s.maxCycles) ∧
      (∀ e, r.outcome = .error (.core e) → r.simulator = s.after (n + 1) ∧
        (s.after n).isFinished = false ∧ (s.after n).tick.outcome = .error e) ∧
      r.simulator.cycles ≤ max s.cycles s.maxCycles ∧
      ((∀ e, r.outcome ≠ .error (.core e)) →
        r.simulator.run.outcome = r.outcome ∧ r.simulator.run.simulator = r.simulator ∧
          r.simulator.run.reports = #[]) ∧
      ∀ k ≤ n, (s.after k).run.outcome = r.outcome ∧ (s.after k).run.simulator = r.simulator ∧
        (s.after k).run.reports.toList = r.reports.toList.drop k := by
  intro r n
  have hr : s.Runs r.reports.toList r.outcome r.simulator := s.runs_run
  refine ⟨hr, fun j hj => ?_, fun c => ⟨fun hc => ?_, ?_⟩, fun c hc => ?_, fun c hc => ?_,
    fun e he => ?_, hr.cycles_le, fun hok => ?_, fun k hk => ?_⟩
  · obtain ⟨hf, -, ho⟩ := hr.cycle hj
    have hcycle : r.reports[j].cycle = (s.after j).cycles + 1 := Core.cycle_of_step_ok ho
    exact ⟨hf, ho, by rw [hcycle, Simulator.cycles_after]⟩
  · have hle := hr.cycles_le
    obtain ⟨ht, hf, hcount⟩ : r.simulator = s.after n ∧ _ ∧ _ := (hc ▸ hr).of_ok
    rw [ht] at hf hcount hle
    rw [Simulator.cycles_after] at hcount hle
    exact ⟨n, hr.advances, hf, by omega, hcount⟩
  · rintro ⟨k, ha, hf, hl, rfl⟩
    obtain ⟨reports, hk⟩ := Simulator.runs_of_finished ha hf hl
    exact hk.run_eq.2.1
  · obtain ⟨ht, -, hcount⟩ := (hc ▸ hr).of_ok
    exact ⟨ht, hcount⟩
  · obtain ⟨ht, hf, -, hcount⟩ := (hc ▸ hr).of_cycleLimit
    exact ⟨ht, hf, hcount⟩
  · exact (he ▸ hr).of_core
  · obtain ⟨hreports, houtcome, hsimulator⟩ := (hr.again hok).run_eq
    exact ⟨houtcome, hsimulator, Array.toList_eq_nil_iff.1 hreports⟩
  · obtain ⟨hreports, houtcome, hsimulator⟩ := (hr.resume hk).run_eq
    exact ⟨houtcome, hsimulator, hreports⟩

/-- The last cycle may be the one that the limit allows. -/
example :
    let run n := (Simulator.ofConfig { maxCycles := n } .demo).toOption.map (·.run.outcome)
    run 5 = some (.ok 5) ∧ run 4 = some (.error (.cycleLimit 4)) := by
  decide +kernel

end OutOfOrder
