import Mathlib
import OutOfOrder.Proofs.Feed
import OutOfOrder.Proofs.Symmetry

/-!
# What cannot fail

A core has ways to fail that no caller should see: an entry that is chosen for issue does not
decode, a result finds the bus taken, an instruction finds no slot after it was told that there is
one. None of them is ever taken (`no_internal_failure`), whatever the core is asked:

* `Executable`: all that the station, the buffer and the latch hold decodes, as dispatch lets in
  nothing else and the latch keeps nothing else;
* `Core.IssuesDecoded`: so the issue phase decodes the entry whose slot it frees, and the bus, which
  the broadcast has emptied, takes the result;
* `Core.Accepts`: the count of the station is that of its occupied slots, so room that is told of is
  there.

The only failure that is left is that of an instruction which the source hands out and which does
not decode.
-/

namespace OutOfOrder

namespace Core

/-- All that a core holds can be executed. -/
structure Executable (c : Core) : Prop where
  station : ∀ e ∈ c.station.slots, e.occupied = true → e.opcode.decode.isSome = true
  buffer : ∀ e ∈ c.buffer.entries, e.opcode.decode.isSome = true
  latch : ∀ i, c.latch = some i → i.opcode.decode.isSome = true

/-- An issue phase that begins here finds nothing ready, or frees the slot of the entry that it has
decoded and finds the bus free for the result. -/
def IssuesDecoded (c : Core) : Prop :=
  (c.station.peek = none ∧ c.station.issue = none ∧ c.issue.answer = .ok none) ∨
    ∃ e n operation, c.station.peek = some e ∧ c.station.slots[n]? = some e ∧ e.ready = true ∧
      e.opcode.decode = some operation ∧
      c.station.issue = some (e.request, c.station.release e n) ∧
      c.issue.answer = .ok (some e.tag) ∧
      let done := { c with station := c.station.release e n }.execute operation e.request
      (done.core.bus.latch ⟨e.tag, done.answer⟩).2 = true

/-- An instruction for which station and buffer have room gets a slot and a place. -/
def Accepts (c : Core) : Prop :=
  c.station.isFull = false → c.buffer.isFull = false → ∀ i,
    (c.station.push (c.resolved i)).2 = true ∧ (c.buffer.push i.opcode i.tag).2 = true

variable {c : Core}

theorem issuesDecoded (hd : ∀ e ∈ c.station.live, e.opcode.decode.isSome = true)
    (hb : c.bus.pending = none) : c.IssuesDecoded := by
  cases ho : c.station.oldestReady with
  | none =>
    have hi : c.station.issue = none := by rw [Station.issue, ho]; rfl
    exact .inl ⟨by rw [Station.peek, ho]; rfl, hi, by rw [issue_none hi]⟩
  | some p =>
    obtain ⟨e, n⟩ := p
    obtain ⟨hr, hn, he⟩ := Station.oldestReady_mem ho
    have hlive : e ∈ c.station.live :=
      Station.mem_live.2 ⟨he ▸ List.getElem_mem hn, Station.Entry.occupied_of_ready hr⟩
    obtain ⟨operation, hop⟩ := Option.isSome_iff_exists.1 (hd e hlive)
    refine .inr ⟨e, n, operation, by rw [Station.peek, ho]; rfl,
      List.getElem?_eq_some_iff.2 ⟨hn, he⟩, hr, hop, by rw [Station.issue, ho]; rfl,
      by rw [issue_sent ho hop], ?_⟩
    intro done
    obtain ⟨predictor, stats, hcore, -⟩ :=
      execute_core { c with station := c.station.release e n } operation e.request
    have hfree : done.core.bus.isFree = true := by
      rw [show done.core = _ from hcore, ResultBus.isFree, hb]
      rfl
    rw [ResultBus.latch, if_pos hfree]

theorem accepts (hc : c.station.Counted) : c.Accepts := by
  intro hs hb i
  obtain ⟨n, hn, -, he⟩ := Station.push_eq hc hs (c.resolved i)
  exact ⟨by rw [he], by simp [ReorderBuffer.push, hb]⟩

theorem latch_dispatch (c : Core) (i : Instruction) : (c.dispatch i).core.latch = c.latch := by
  obtain ⟨-, he⟩ | ⟨stall, stats, he, -⟩ | ⟨-, -, -, he⟩ := c.dispatch_cases i
  all_goals rw [he]
  rfl

section
variable {issued : Option Tag} (hi : c.settled.issue.answer = .ok issued)
include hi

/-- A cycle that is offered nothing ends well, with nothing latched. -/
theorem step_unoffered {source : List Instruction} (ho : c.offered source = none) :
    (c.step source).core.latch = none ∧
      (c.step source).outcome = .ok (c.report issued none none) := by
  obtain ⟨-, he⟩ | ⟨i, ho', -⟩ := c.late_cases source
  · obtain ⟨hout, hcore, -⟩ := step_ok hi (by rw [he]) (c.cycles_late source)
    exact ⟨by rw [hcore, he], hout⟩
  · rw [ho] at ho'
    cases ho'

/-- A cycle leaves nothing in the latch that cannot be executed, whatever was there. -/
theorem decodes_latch_step (source : List Instruction) {i : Instruction}
    (hl : (c.step source).core.latch = some i) : i.opcode.decode.isSome = true := by
  cases ho : c.offered source with
  | none =>
    rw [(step_unoffered hi ho).1] at hl
    cases hl
  | some j =>
    -- it is refused, held back or installed, and only when it is held back is it latched
    obtain ⟨-, hlatch, -⟩ | ⟨hd, hlatch, -⟩ | ⟨-, -, hcore, -⟩ := step_offered hi ho
    · rw [hlatch] at hl
      cases hl
    · rw [hlatch] at hl
      cases hl
      exact hd
    · rw [hcore] at hl
      cases hl

/-- A cycle that fails was offered an instruction that does not decode. -/
theorem step_error {source : List Instruction} {e : CoreError}
    (he : (c.step source).outcome = .error e) :
    ∃ i, c.offered source = some i ∧ i.opcode.decode = none ∧
      e = .unrecognizedOpcode i.tag i.opcode := by
  cases ho : c.offered source with
  | none =>
    rw [(step_unoffered hi ho).2] at he
    cases he
  | some i =>
    obtain ⟨hd, -, hout⟩ | ⟨-, -, stall, hout⟩ | ⟨-, -, -, hout⟩ := step_offered hi ho
    · rw [hout] at he
      cases he
      exact ⟨i, rfl, hd, rfl⟩
    · rw [hout] at he
      cases he
    · rw [hout] at he
      cases he

end

end Core

namespace History

/-- What every run keeps, and that nothing got in which cannot be executed. -/
structure Executable (config : Config) (h : History) : Prop extends Sound config h where
  installed : ∀ i ∈ h.installed, i.opcode.decode.isSome = true
  latch : ∀ i, h.core.latch = some i → i.opcode.decode.isSome = true

/-- Only what decodes is installed. -/
theorem kept_installed :
    Kept (fun _ => True) (fun h => ∀ i ∈ h.installed, i.opcode.decode.isSome = true) where
  closed := fun _ => trivial
  frame := fun _ _ _ hd => hd
  broadcast := fun _ _ hd => hd
  leave := fun _ _ hd => hd
  send := fun _ _ _ _ _ hd => hd
  install := fun _ hi _ _ hd j hj => by
    rcases List.mem_append.1 hj with hj | hj
    · exact hd j hj
    · rwa [List.mem_singleton.1 hj]

namespace Executable

variable {config : Config} {h : History}

theorem start {core : Core} (valid : config.validate = .ok ()) (hf : core.Fresh config) :
    Executable config (History.start core) where
  toSound := .start valid hf
  installed := nofun
  latch := by simp [History.start, hf.latch]

theorem call (hx : Executable config h) (c : Call) : Executable config (h.call c) where
  toSound := Sound.kept.call c trivial hx.toSound
  installed := kept_installed.call c trivial hx.installed
  latch := by
    intro i hl
    cases c with
    | dispatch j => exact hx.latch i (h.core.latch_dispatch j ▸ hl)
    | step source =>
      obtain ⟨issued, hi⟩ := Simulator.Fed.issue_ok hx.toSound
      exact Core.decodes_latch_step hi source hl

theorem run (hx : Executable config h) (calls : List Call) : Executable config (h.run calls) := by
  induction calls generalizing h with
  | nil => exact hx
  | cons c calls ih => exact ih (hx.call c)

/-- The entries of the buffer are of instructions that were installed. -/
theorem core (hx : Executable config h) : h.core.Executable where
  station := fun e he ho => hx.decodes e (Station.mem_live.2 ⟨he, ho⟩)
  buffer := by
    intro e he
    have hk : e.key ∈ h.installed.map (·.key) :=
      hx.log ▸ List.mem_map_of_mem (List.mem_append_right _ he)
    obtain ⟨i, hi, hik⟩ := List.mem_map.1 hk
    have hop : i.opcode = e.opcode := congrArg Prod.snd hik
    exact hop ▸ hx.installed i hi
  latch := hx.latch

end Executable

end History

/-- After any calls on a new core, with whatever instructions and sources: all that the core holds
can be executed; the issue phase of the next cycle decodes the entry that it issues, and its result
is latched; an instruction that passes both checks of capacity, in a dispatch or in the dispatch
phase of the next cycle, is put into both structures. So a cycle fails only with an instruction
that it takes from its source and that does not decode. -/
theorem no_internal_failure {config : Config} (valid : config.validate = .ok ()) :
    ∃ core, Core.ofConfig config = .ok core ∧
      ∀ calls, let c := ((History.start core).run calls).core
        c.Executable ∧ c.settled.IssuesDecoded ∧ c.Accepts ∧
        { c.settled.issue.core with latch := none }.Accepts ∧
        ∀ source e, (c.step source).outcome = .error e →
          c.latch = none ∧ ∃ i, source.head? = some i ∧ i.opcode.decode = none ∧
            e = .unrecognizedOpcode i.tag i.opcode := by
  obtain ⟨core, hcore, hf⟩ := Core.ofConfig_fresh valid
  refine ⟨core, hcore, ?_⟩
  intro calls c
  have hx : History.Executable config ((History.start core).run calls) :=
    (History.Executable.start valid hf).run calls
  have hsettle : History.Sound config ((History.start core).run calls).settle :=
    History.Sound.kept.settle (C := fun _ => True) trivial hx.toSound
  have hpending := ((History.start core).run calls).pending_settle
  have hissue : History.Sound config ((History.start core).run calls).settle.issue :=
    History.Sound.kept.issue (C := fun _ => True) trivial hpending hsettle
  refine ⟨hx.core, Core.issuesDecoded hsettle.decodes hpending, Core.accepts hx.counted,
    Core.accepts hissue.counted, ?_⟩
  intro source e he
  obtain ⟨issued, hi⟩ := Simulator.Fed.issue_ok hx.toSound
  obtain ⟨i, ho, hd, rfl⟩ := Core.step_error hi he
  rcases Option.or_eq_some_iff.1 ho with hl | ⟨hl, hs⟩
  · -- what is latched decodes
    have := hx.latch i hl
    rw [hd] at this
    cases this
  · exact ⟨hl, i, hs, hd, rfl⟩

/-- An instruction is in the station, ready, while another of the same tag is on the bus. The cycle
that is then offered one that does not decode fails with that one, and issues before it does. -/
theorem no_internal_failure_refused :
    ∃ core, Core.ofConfig { stationEntries := 2 } = .ok core ∧
      let i := Instruction.of (.alu .add) 1 (.ready 2) (.ready 3) (.ready 0)
      let refused : Instruction := ⟨⟨0⟩, ⟨7⟩, i.operands⟩
      let calls := [.dispatch refused, .dispatch i, .dispatch i, .dispatch i, .step [refused],
        .step [i]]
      let c := ((History.start core).run calls).core
      c.station.live.map (·.tag) = [⟨1⟩] ∧ c.bus.pending.map (·.tag) = some ⟨1⟩ ∧
        c.settled.issue.answer = .ok (some ⟨1⟩) ∧ c.settled.IssuesDecoded ∧ c.Accepts ∧
        ∃ e, (c.step [refused]).outcome = .error e ∧ c.latch = none := by
  obtain ⟨core, hc, h⟩ :=
    no_internal_failure (show Config.validate { stationEntries := 2 } = .ok () by decide)
  obtain rfl := Except.ok.inj (hc.symm.trans rfl)
  refine ⟨_, hc, ?_⟩
  intro i refused calls c
  obtain ⟨-, hissue, haccepts, -, herror⟩ := h calls
  have hout : (c.step [refused]).outcome = .error (.unrecognizedOpcode ⟨7⟩ ⟨0⟩) := by
    decide +kernel
  exact ⟨by decide +kernel, by decide +kernel, by decide +kernel, hissue, haccepts, _, hout,
    (herror _ _ hout).1⟩

end OutOfOrder
