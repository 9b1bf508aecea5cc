import Mathlib
import OutOfOrder.Proofs.Lockstep
import OutOfOrder.Simulator

/-!
# The schedule of a whole simulation

Where every operand names an earlier instruction, the cycles of a simulation depend on the number
of its instructions alone. A buffer with room for more than one takes one instruction in each cycle,
and the last of them retires three cycles after it came; a buffer with room for one takes one in
every other cycle. `wideReport` and `narrowReport` are the reports of the two, cycle by cycle.

The pipeline that the core is in lockstep with is followed in closed form (`Pipeline.after_wide`,
`Pipeline.after_narrow`), and `Simulator.runFor_of_ticks` turns what is known of each cycle into
what is known of a run.
-/

namespace OutOfOrder

/-! ## Reports in closed form -/

namespace Program

/-- The instruction `back` places before place `n`. -/
def before (p : Program) (n back : Nat) : Option Instruction :=
  if back ≤ n then p[n - back]? else none

def tagBefore (p : Program) (n back : Nat) : Option Tag := (p.before n back).map (·.tag)

/-- The report of cycle `c`, counted from one, if the buffer has room for two instructions. -/
def wideReport (p : Program) (c : Nat) : CycleReport where
  cycle := c
  broadcast := p.tagBefore c 3
  retired := p.tagBefore c 3
  issued := p.tagBefore c 2
  dispatched := p.tagBefore c 1
  stall := none

/-- The report of cycle `c`, counted from one, if the buffer has room for one instruction: in cycle
`2 * k + 1` instruction `k` comes in and the one before it leaves, and in cycle `2 * k + 2` it is
issued and the one after it held back. -/
def narrowReport (p : Program) (c : Nat) : CycleReport :=
  let k := (c - 1) / 2
  if c % 2 = 1 then
    { cycle := c
      broadcast := p.tagBefore k 1
      retired := p.tagBefore k 1
      issued := none
      dispatched := p.tagBefore k 0
      stall := none }
  else
    { cycle := c
      broadcast := none
      retired := none
      issued := p.tagBefore k 0
      dispatched := none
      stall := if k + 1 < p.length then some .bufferFull else none }

theorem before_succ (p : Program) (n back : Nat) :
    p.before (n + 1) (back + 1) = p.before n back := by
  simp only [before, Nat.add_le_add_iff_right, Nat.add_sub_add_right]

theorem before_zero (p : Program) (n : Nat) : p.before n 0 = p[n]? := rfl

theorem before_eq_none {p : Program} {n back : Nat} :
    p.before n back = none ↔ n < back ∨ p.length + back ≤ n := by
  unfold before
  split
  · rw [List.getElem?_eq_none_iff]
    omega
  · simp
    omega

end Program

namespace Pipeline

/-- The pipeline after `c` moves. -/
def after (wide : Bool) (program : Program) : Nat → Pipeline
  | 0 => ⟨none, none, program⟩
  | c + 1 => (after wide program c).next wide

theorem after_wide (program : Program) (c : Nat) :
    after true program c = ⟨program.before c 2, program.before c 1, program.drop c⟩ := by
  induction c with
  | zero => rfl
  | succ c ih =>
    rw [after, ih, program.before_succ, program.before_succ]
    simp [next, entering, room, Program.before]

theorem next_held {p : Pipeline} (h : p.held = none → p.rest = []) :
    p.next false = ⟨p.held, none, p.rest⟩ := by
  cases hh : p.held with
  | none => simp [next, entering, room, hh, h hh]
  | some i => simp [next, entering, room, hh]

/-- With room for one instruction, one comes in, is issued, and leaves as the next comes in. -/
theorem after_narrow (program : Program) (k : Nat) :
    after false program (2 * k) = ⟨program.before k 1, none, program.drop k⟩ ∧
      after false program (2 * k + 1) = ⟨none, program.before k 0, program.drop (k + 1)⟩ := by
  have hodd : ∀ k, after false program (2 * k) = ⟨program.before k 1, none, program.drop k⟩ →
      after false program (2 * k + 1) = ⟨none, program.before k 0, program.drop (k + 1)⟩ := by
    intro k hk
    rw [after, hk]
    simp [next, entering, room, Program.before]
  induction k with
  | zero => exact ⟨rfl, hodd 0 rfl⟩
  | succ k ih =>
    have heven : after false program (2 * (k + 1)) =
        ⟨program.before (k + 1) 1, none, program.drop (k + 1)⟩ := by
      rw [Nat.mul_succ, after, ih.2, program.before_succ]
      refine next_held fun (hn : program.before k 0 = none) => List.drop_of_length_le ?_
      have := Program.before_eq_none.1 hn
      omega
    exact ⟨heven, hodd (k + 1) heven⟩

theorem report_wide (program : Program) (c : Nat) :
    (after true program c).report true (c + 1) = program.wideReport (c + 1) := by
  rw [after_wide]
  simp [report, entering, stall, room, Program.wideReport, Program.tagBefore,
    Program.before_succ, Program.before_zero]

/-- With room for one instruction, the one in the station keeps the next one out. -/
theorem kept_out (program : Program) (k : Nat) :
    let p : Pipeline := ⟨none, program[k]?, program.drop (k + 1)⟩
    p.entering false = none ∧
      p.stall false = if k + 1 < program.length then some .bufferFull else none := by
  by_cases hk : k < program.length
  · refine ⟨by simp [entering, room, List.getElem?_eq_getElem hk], ?_⟩
    by_cases hk1 : k + 1 < program.length
    · simp [stall, room, List.getElem?_eq_getElem hk, hk1]
    · simp [stall, room, List.getElem?_eq_getElem hk, hk1]
  · -- past the end there is room, but nothing comes
    have hdrop : program.drop (k + 1) = [] := List.drop_of_length_le (by omega)
    have hk1 : ¬ k + 1 < program.length := by omega
    simp [entering, stall, hdrop, hk1]

theorem report_narrow (program : Program) (c : Nat) :
    (after false program c).report false (c + 1) = program.narrowReport (c + 1) := by
  obtain ⟨k, rfl | rfl⟩ := c.even_or_odd'
  · rw [(after_narrow program k).1]
    have h1 : (2 * k + 1) % 2 = 1 := by omega
    simp [report, entering, stall, room, Program.narrowReport, Program.tagBefore,
      Program.before_zero, h1]
  · rw [(after_narrow program k).2, Program.before_zero]
    have h1 : (2 * k + 1 + 1) % 2 = 0 := by omega
    have h2 : (2 * k + 1) / 2 = k := by omega
    obtain ⟨he, hs⟩ := kept_out program k
    simp [report, he, hs, Program.narrowReport, Program.tagBefore, Program.before_zero, h1, h2]

theorem report_after (wide : Bool) (program : Program) (c : Nat) :
    (after wide program c).report wide (c + 1) =
      (if wide then program.wideReport else program.narrowReport) (c + 1) := by
  cases wide with
  | false => exact report_narrow program c
  | true => exact report_wide program c

/-- How many moves it takes until nothing is left. -/
def moves (wide : Bool) (program : Program) : Nat :=
  if wide then program.length + 2 else 2 * program.length + 1

theorem after_eq_empty {wide : Bool} {program : Program} (hne : program ≠ []) {c : Nat}
    (hc : c ≤ moves wide program) :
    after wide program c = ⟨none, none, []⟩ ↔ c = moves wide program := by
  have hlen := List.length_pos_of_ne_nil hne
  cases wide with
  | true =>
    rw [after_wide]
    simp only [moves, if_true, mk.injEq, Program.before_eq_none, List.drop_eq_nil_iff] at hc ⊢
    omega
  | false =>
    simp only [moves, Bool.false_eq_true, if_false] at hc ⊢
    obtain ⟨k, rfl | rfl⟩ := c.even_or_odd'
    · rw [(after_narrow program k).1]
      simp only [mk.injEq, Program.before_eq_none, List.drop_eq_nil_iff, true_and]
      omega
    · rw [(after_narrow program k).2]
      simp only [mk.injEq, Program.before_eq_none, List.drop_eq_nil_iff, true_and]
      omega

end Pipeline

/-! ## From cycles to a run -/

/-- A core in lockstep has finished when the pipeline is empty. -/
theorem History.Lockstep.isFinished_iff {config : Config} {program : Program} {p : Pipeline}
    {h : History} {s : Simulator} (hl : Lockstep config program p h s.source)
    (hs : s.core = h.core) : s.isFinished = true ↔ p = ⟨none, none, []⟩ := by
  have hrest := hl.rest
  have hheld := hl.held
  have hflying := hl.flying
  rw [Simulator.isFinished, Core.isDrained, hs]
  simp only [Bool.and_eq_true, List.isEmpty_iff, Option.isNone_iff_eq_none,
    Station.isEmpty_iff hl.counted, ReorderBuffer.isEmpty_eq_true_iff, ResultBus.isFree]
  constructor
  · rintro ⟨hsource, ⟨⟨hlatch, hlive⟩, -⟩, hbus⟩
    rw [hsource, hlatch] at hrest
    rw [hlive] at hheld
    rw [hbus] at hflying
    obtain ⟨flying, held, rest⟩ := p
    obtain rfl : flying = none := Option.map_eq_none_iff.1 hflying.symm
    obtain rfl : held = none := Option.map_eq_none_iff.1 (Option.toList_eq_nil_iff.1 hheld.symm)
    obtain rfl : rest = [] := hrest.symm
    rfl
  · rintro rfl
    obtain ⟨hlatch, hsource⟩ := List.append_eq_nil_iff.1 hrest
    refine ⟨hsource, ⟨⟨Option.toList_eq_nil_iff.1 hlatch, List.map_eq_nil_iff.1 hheld⟩, ?_⟩,
      Option.map_eq_none_iff.1 hflying⟩
    obtain ⟨done, hdone, hn⟩ := hl.split
    exact List.map_eq_nil_iff.1 (tags_entries hl.toSound hdone hn)

namespace Simulator

/-- After `c` cycles the core is in lockstep with the pipeline after `c` moves. -/
def OnSchedule (config : Config) (program : Program) (c : Nat) (s : Simulator) : Prop :=
  s.cycles = c ∧ ∃ h, s.core = h.core ∧
    History.Lockstep config program (Pipeline.after config.wide program c) h s.source

theorem OnSchedule.tick {config : Config} {program : Program} {tags : TagSpace}
    (valid : config.validate = .ok ()) (ht : config.tagSpace = .ok tags)
    (hd : ∀ i ∈ program, i.opcode.decode.isSome = true)
    (hc : Spaced tags.window (program.map (·.tag)) ∧ Supplied program) {c : Nat} {s : Simulator}
    (h : OnSchedule config program c s) :
    s.tick.outcome =
        .ok ((if config.wide then program.wideReport else program.narrowReport) (c + 1)) ∧
      OnSchedule config program (c + 1) s.tick.simulator := by
  obtain ⟨hcycles, h, hs, hl⟩ := h
  obtain ⟨ho, hnext, hcycles'⟩ := hl.step valid ht hc hd
  rw [cycles, hs] at hcycles
  rw [hcycles] at ho hcycles'
  rw [Pipeline.report_after, ← hs] at ho
  rw [← hs] at hnext
  have hcore : s.tick.simulator.core = (h.call (.step s.source)).core := by
    rw [Simulator.tick, hs]
    rfl
  exact ⟨ho, by rw [cycles, hcore, hcycles'], _, hcore, hnext⟩

/-- A run, if what holds after `c` cycles is known for every `c`. -/
theorem runFor_of_ticks {last : Nat} {report : Nat → CycleReport} {I : Nat → Simulator → Prop}
    (htick : ∀ {c s}, I c s → s.tick.outcome = .ok (report (c + 1)) ∧ I (c + 1) s.tick.simulator)
    (hlast : ∀ {c s}, I c s → c ≤ last → (s.isFinished = true ↔ c = last))
    (hcycles : ∀ {c s}, I c s → s.cycles = c) (budget : Nat) {c : Nat} {s : Simulator}
    (h : I c s) (hc : c ≤ last) (reports : Array CycleReport) (events : Array Event) :
    (s.runFor budget reports events).outcome =
        (if last ≤ c + budget then .ok last else .error (.cycleLimit (c + budget))) ∧
      (s.runFor budget reports events).reports.toList =
        reports.toList ++ (List.range' (c + 1) (min (last - c) budget)).map report := by
  induction budget generalizing c s reports events with
  | zero =>
    unfold runFor
    by_cases hf : s.isFinished = true
    · obtain rfl := (hlast h hc).1 hf
      simp [hf, hcycles h]
    · have hne : c ≠ last := fun he => hf ((hlast h hc).2 he)
      simp [hf, hcycles h, show ¬ last ≤ c by omega]
  | succ budget ih =>
    unfold runFor
    by_cases hf : s.isFinished = true
    · obtain rfl := (hlast h hc).1 hf
      simp [hf, hcycles h]
    · have hne : c ≠ last := fun he => hf ((hlast h hc).2 he)
      obtain ⟨ht, hI⟩ := htick h
      obtain ⟨ho, hr⟩ := ih hI (by omega) (reports.push (report (c + 1))) (events ++ s.tick.events)
      rw [if_neg hf]
      dsimp only
      rw [ht]
      dsimp only
      rw [ho, hr, show min (last - c) (budget + 1) = min (last - (c + 1)) budget + 1 by omega,
        List.range'_succ, Nat.add_right_comm c 1 budget, Nat.add_assoc c budget 1]
      simp

end Simulator

/-! ## The schedule -/

/-- Where every operand names an earlier instruction and equal tags are a window apart, a program of
`n` instructions takes `n + 2` cycles, or `2 * n + 1` if the buffer has room for one, and each cycle
reports what stands in the schedule. A limit that is too low ends the run after that many cycles. -/
theorem run_scheduled {config : Config} {program : Program} (valid : config.validate = .ok ())
    (hne : program ≠ []) (hd : ∀ i ∈ program, i.opcode.decode.isSome = true)
    (hsupplied : Supplied program) :
    ∃ s, Simulator.ofConfig config program = .ok s ∧
      (Spaced s.core.tags.window (program.map (·.tag)) →
        let wide := 3 ≤ config.bufferEntries
        let last := if wide then program.length + 2 else 2 * program.length + 1
        s.run.outcome = (if last ≤ config.maxCycles then .ok last
          else .error (.cycleLimit config.maxCycles)) ∧
        s.run.reports.toList = (List.range' 1 (min last config.maxCycles)).map
          (if wide then program.wideReport else program.narrowReport)) := by
  obtain ⟨core, hcore, hf⟩ := Core.ofConfig_fresh valid
  refine ⟨⟨core, program, #[], config.maxCycles⟩, by rw [Simulator.ofConfig, hcore]; rfl, ?_⟩
  intro hspaced wide last
  have hc : Spaced core.tags.window (program.map (·.tag)) ∧ Supplied program := ⟨hspaced, hsupplied⟩
  have hstart : Simulator.OnSchedule config program 0 ⟨core, program, #[], config.maxCycles⟩ :=
    ⟨by rw [Simulator.cycles, hf.stats], _, rfl, History.Lockstep.start valid hf program⟩
  have hwide : (config.wide = true) = (3 ≤ config.bufferEntries) := decide_eq_true_eq
  have hlast : Pipeline.moves config.wide program = last := by
    simp only [Pipeline.moves, hwide, last, wide]
  obtain ⟨ho, hr⟩ := Simulator.runFor_of_ticks
    (fun h => Simulator.OnSchedule.tick valid hf.tags hd hc h)
    (fun ⟨_, _, hs, hl⟩ hle => (hl.isFinished_iff hs).trans (Pipeline.after_eq_empty hne hle))
    (fun h => h.1) config.maxCycles hstart (Nat.zero_le _) #[] #[]
  rw [hlast] at ho hr
  have hrun : (⟨core, program, #[], config.maxCycles⟩ : Simulator).run =
      (⟨core, program, #[], config.maxCycles⟩ : Simulator).runFor config.maxCycles #[] #[] := by
    rw [Simulator.run, hstart.1]
    rfl
  simp only [hwide, Nat.zero_add, Nat.sub_zero] at ho hr
  rw [hrun]
  exact ⟨ho, hr⟩

/-- The demonstration takes five cycles, and seven where the buffer has room for one instruction, so
that a limit of six ends it. -/
theorem run_scheduled_demo :
    (∃ s, Simulator.ofConfig {} Program.demo = .ok s ∧ s.run.outcome = .ok 5 ∧
      s.run.reports.toList = (List.range' 1 5).map (Program.wideReport Program.demo)) ∧
    ∃ s, Simulator.ofConfig { bufferEntries := 2, maxCycles := 6 } Program.demo = .ok s ∧
      s.run.outcome = .error (.cycleLimit 6) ∧
      s.run.reports.toList = (List.range' 1 6).map (Program.narrowReport Program.demo) := by
  have hne : Program.demo ≠ [] := by decide
  have hd : ∀ i ∈ Program.demo, i.opcode.decode.isSome = true := by decide
  have hs : Supplied Program.demo := by decide
  constructor
  · obtain ⟨s, hs, h⟩ := run_scheduled (show Config.validate {} = .ok () by decide) hne hd hs
    obtain rfl := Except.ok.inj (hs.symm.trans rfl)
    obtain ⟨ho, hr⟩ := h (by decide)
    exact ⟨_, hs, ho, hr⟩
  · obtain ⟨s, hs, h⟩ := run_scheduled
      (show Config.validate { bufferEntries := 2, maxCycles := 6 } = .ok () by decide) hne hd hs
    obtain rfl := Except.ok.inj (hs.symm.trans rfl)
    obtain ⟨ho, hr⟩ := h (by decide)
    exact ⟨_, hs, ho, hr⟩

end OutOfOrder
