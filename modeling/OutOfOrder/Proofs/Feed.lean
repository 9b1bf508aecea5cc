import Mathlib
import OutOfOrder.Proofs.InFlight
import OutOfOrder.Simulator

/-!
# From the program to the log

A simulation moves instructions from its program through the latch and the buffer to the log of what
has retired. None of them is lost, doubled or overtaken on the way: log, buffer and latch together
always are what was taken from the program so far, without the instructions that cannot be executed
(`nothing_lost`). This holds for every program, and also after cycles that fail.

`Fed` ties a simulation to a history, so that what every history keeps can be used of it.
-/

namespace OutOfOrder

namespace Simulator

/-- The simulator after so many cycles, whether they fail or not. -/
def after (s : Simulator) : Nat → Simulator
  | 0 => s
  | n + 1 => (s.after n).tick.simulator

/-- A simulation of a program goes along with a history: they have the same core, the same entries
have retired, and what was taken from the program and can be executed has been installed, the last
of it not before it has left the latch. -/
structure Fed (config : Config) (program : Program) (s : Simulator) (h : History) : Prop extends
    History.Sound config h where
  core : s.core = h.core
  retired : s.retired.toList = h.retired
  taken : ∃ taken, program = taken ++ s.source ∧
    h.installed ++ h.core.latch.toList = taken.filter (·.opcode.decode.isSome)

namespace Fed

variable {config : Config} {program : Program} {s : Simulator} {h : History}

theorem start {core : Core} (valid : config.validate = .ok ()) (hf : core.Fresh config) :
    Fed config program ⟨core, program, #[], config.maxCycles⟩ (History.start core) where
  toSound := .start valid hf
  core := rfl
  retired := rfl
  taken := ⟨[], rfl, by simp [History.start, hf.latch]⟩

/-- The issue phase never fails, as nothing that does not decode is in the station. -/
theorem issue_ok (hs : History.Sound config h) :
    ∃ issued, h.core.settled.issue.answer = .ok issued := by
  have hsettle : History.Sound config h.settle :=
    History.Sound.kept.settle (C := fun _ => True) trivial hs
  exact ⟨_, Core.issue_answer hsettle.decodes⟩

/-- What is latched can be executed. -/
theorem decodes_latch (hf : Fed config program s h) {i : Instruction}
    (hi : h.core.latch = some i) : i.opcode.decode.isSome = true := by
  obtain ⟨taken, -, ht⟩ := hf.taken
  rw [hi] at ht
  have hm : i ∈ taken.filter (·.opcode.decode.isSome) := ht ▸ by simp
  exact (List.mem_filter.1 hm).2

/-- A cycle installs what it is offered, or keeps it in the latch, or drops what cannot be
executed. -/
theorem installed_step (hs : History.Sound config h) (source : List Instruction) :
    (h.call (.step source)).installed ++ (h.call (.step source)).core.latch.toList =
      h.installed ++ (h.core.offered source).toList.filter (·.opcode.decode.isSome) := by
  obtain ⟨issued, hi⟩ := issue_ok hs
  change (h.installed ++ if (h.core.step source).installs then _ else _) ++
    (h.core.step source).core.latch.toList = _
  rw [List.append_assoc]
  congr 1
  cases ho : h.core.offered source with
  | none =>
    obtain ⟨-, he⟩ | ⟨i, hi', -⟩ := h.core.late_cases source
    · have hcore := (Core.step_ok hi (by rw [he]) (h.core.cycles_late source)).2.1
      rw [hcore, he]
      simp
    · rw [ho] at hi'
      cases hi'
  | some i =>
    obtain ⟨hd, hl, hout⟩ | ⟨hd, hl, stall, hout⟩ | ⟨hd, -, hcore, hout⟩ :=
      Core.step_offered hi ho
    · simp [Core.Cycle.installs, hout, hl, hd]
    · simp [Core.Cycle.installs, hout, hl, hd, Core.report]
    · simp [Core.Cycle.installs, hout, hcore, hd, Core.report, Core.install]

theorem tick (hf : Fed config program s h) :
    Fed config program s.tick.simulator (h.call (.step s.source)) where
  toSound := History.Sound.kept.call (.step s.source) trivial hf.toSound
  core := by rw [Simulator.tick, hf.core]; rfl
  retired := by
    change ((s.core.step s.source).retired.elim s.retired s.retired.push).toList =
      h.retired ++ (h.core.step s.source).retired.toList
    rw [← hf.core, ← hf.retired]
    cases (s.core.step s.source).retired <;> simp
  taken := by
    obtain ⟨taken, hp, ht⟩ := hf.taken
    obtain ⟨issued, hi⟩ := issue_ok hf.toSound
    have hsource : s.tick.simulator.source =
        if h.core.latch.isNone then s.source.tail else s.source := by
      rw [← Core.step_source hi, ← hf.core]
      rfl
    rw [installed_step hf.toSound, hsource]
    cases hl : h.core.latch with
    | some i =>
      rw [hl] at ht
      refine ⟨taken, hp, ?_⟩
      rw [← ht]
      simp [Core.offered, hl, hf.decodes_latch hl]
    | none =>
      rw [hl] at ht
      refine ⟨taken ++ s.source.head?.toList, ?_, ?_⟩
      · rw [hp]
        cases s.source <;> simp
      · rw [List.filter_append, ← ht]
        simp [Core.offered, hl]

/-- No cycle fails if all of the program can be executed. -/
theorem tick_ok (hf : Fed config program s h) (hd : ∀ i ∈ program, i.opcode.decode.isSome = true) :
    ∃ report, s.tick.outcome = .ok report := by
  obtain ⟨issued, hi⟩ := issue_ok hf.toSound
  change ∃ report, (s.core.step s.source).outcome = .ok report
  rw [hf.core]
  cases ho : h.core.offered s.source with
  | none =>
    obtain ⟨-, he⟩ | ⟨i, hi', -⟩ := h.core.late_cases s.source
    · exact ⟨_, (Core.step_ok hi (by rw [he]) (h.core.cycles_late s.source)).1⟩
    · rw [ho] at hi'
      cases hi'
  | some i =>
    have hdi : i.opcode.decode.isSome = true := by
      rcases Option.or_eq_some_iff.1 ho with hl | ⟨-, hs⟩
      · exact hf.decodes_latch hl
      · obtain ⟨taken, hp, -⟩ := hf.taken
        exact hd i (hp ▸ List.mem_append_right _ (List.mem_of_mem_head? hs))
    obtain ⟨hn, -⟩ | ⟨-, -, stall, hout⟩ | ⟨-, -, -, hout⟩ := Core.step_offered hi ho
    · rw [hn] at hdi
      cases hdi
    · exact ⟨_, hout⟩
    · exact ⟨_, hout⟩

theorem after {core : Core} (valid : config.validate = .ok ()) (hf : core.Fresh config) (n : Nat) :
    ∃ h, Fed config program (Simulator.after ⟨core, program, #[], config.maxCycles⟩ n) h := by
  induction n with
  | zero => exact ⟨_, start valid hf⟩
  | succ n ih =>
    obtain ⟨h, hn⟩ := ih
    exact ⟨_, hn.tick⟩

end Fed

end Simulator

/-! ## Nothing is lost -/

/-- After any number of cycles, those that fail included, what is left of the program is the program
without its first `k` instructions, and the entries that have retired, the entries in the buffer and
the latched instruction are, in this order, those of the first `k` that can be executed. The program
is asked for an instruction only while the latch is empty, and a latched instruction stays as it is
until it is installed. -/
theorem nothing_lost {config : Config} {program : Program} (valid : config.validate = .ok ()) :
    ∃ s, Simulator.ofConfig config program = .ok s ∧
      ∀ n, let now := s.after n
        let next := now.tick
        (∃ k ≤ program.length, now.source = program.drop k ∧
          now.retired.toList.map (·.key) ++ now.core.buffer.entries.map (·.key) ++
              now.core.latch.toList.map (·.key) =
            ((program.take k).filter (·.opcode.decode.isSome)).map (·.key)) ∧
        next.simulator.source =
          (if now.core.latch.isNone then now.source.tail else now.source) ∧
        ∀ i, now.core.latch = some i →
          (next.simulator.core.latch = some i ∧
              ∃ report, next.outcome = .ok report ∧ report.dispatched = none) ∨
            (next.simulator.core.latch = none ∧
              next.simulator.core.buffer.entries.getLast? = some (.pending i.opcode i.tag) ∧
              ∃ report, next.outcome = .ok report ∧ report.dispatched = some i.tag) := by
  obtain ⟨core, hcore, hfresh⟩ := Core.ofConfig_fresh valid
  refine ⟨⟨core, program, #[], config.maxCycles⟩, by rw [Simulator.ofConfig, hcore]; rfl, ?_⟩
  intro n now next
  obtain ⟨h, hf⟩ : ∃ h, Simulator.Fed config program now h := Simulator.Fed.after valid hfresh n
  obtain ⟨issued, hi⟩ := Simulator.Fed.issue_ok hf.toSound
  rw [← hf.core] at hi
  refine ⟨?_, Core.step_source hi, ?_⟩
  · obtain ⟨taken, hp, ht⟩ := hf.taken
    refine ⟨taken.length, by rw [hp, List.length_append]; omega, ?_, ?_⟩
    · rw [hp, List.drop_left]
    · rw [hp, List.take_left, ← ht, List.map_append, ← hf.log, hf.retired, hf.core]
      simp
  · intro i hl
    have ho : now.core.offered now.source = some i := by rw [Core.offered, hl]; rfl
    have hd : i.opcode.decode.isSome = true := hf.decodes_latch (hf.core ▸ hl)
    obtain ⟨hn, -⟩ | ⟨-, hlatch, stall, hout⟩ | ⟨-, hb, hstep, hout⟩ := Core.step_offered hi ho
    · rw [hn] at hd
      cases hd
    · exact .inl ⟨hlatch, _, hout, rfl⟩
    · have hnext : next.simulator.core =
          { now.core.settled.issue.core with latch := none }.install i := hstep
      have hentries : next.simulator.core.buffer.entries =
          now.core.settled.issue.core.buffer.entries ++ [.pending i.opcode i.tag] := by
        rw [hnext]
        exact ReorderBuffer.entries_push _ _ _ hb
      refine .inr ⟨by rw [hnext]; rfl, ?_, _, hout, rfl⟩
      rw [hentries, List.getLast?_concat]

/-- With one slot in the station, the instruction after one that waits for ever stays in the latch,
and no other is taken. The one before them could not be executed, and is the only one missing. -/
theorem nothing_lost_stalled :
    let i n a := Instruction.of (.alu .add) n a (.ready 2) (.ready 0)
    let program := [i 0 (.ready 1), ⟨⟨0⟩, ⟨7⟩, (i 0 (.ready 1)).operands⟩, i 1 (.waitingOn ⟨9⟩),
      i 2 (.ready 3), i 3 (.ready 4)]
    ∃ s, Simulator.ofConfig { stationEntries := 1 } program = .ok s ∧
      let now := s.after 6
      now.retired.toList.map (·.tag) = [⟨0⟩] ∧ now.core.latch = some (i 2 (.ready 3)) ∧
        (∃ k ≤ program.length, now.source = program.drop k ∧
          now.retired.toList.map (·.key) ++ now.core.buffer.entries.map (·.key) ++
              now.core.latch.toList.map (·.key) =
            ((program.take k).filter (·.opcode.decode.isSome)).map (·.key)) ∧
        now.tick.simulator.source = now.source ∧
        now.tick.simulator.core.latch = some (i 2 (.ready 3)) := by
  intro i program
  obtain ⟨s, hs, h⟩ := @nothing_lost { stationEntries := 1 } program (by decide)
  obtain rfl := Except.ok.inj (hs.symm.trans rfl)
  refine ⟨_, hs, ?_⟩
  intro now
  obtain ⟨hk, hsource, -⟩ := h 6
  have hlatch : now.core.latch = some (i 2 (.ready 3)) := by decide +kernel
  refine ⟨by decide +kernel, hlatch, hk, ?_, by decide +kernel⟩
  exact hsource.trans (if_neg (by rw [hlatch]; exact Bool.false_ne_true))

end OutOfOrder
