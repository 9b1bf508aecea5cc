import Mathlib
import OutOfOrder.Proofs.Unfailing

/-!
# A refused instruction leaves no trace

A cycle finds out in its last phase that the instruction it has fetched does not decode. By then it
has broadcast, retired and issued, and that is done as in any other cycle: it ends as if the source
had been empty, in the same core and with the same entry retired, except that the source is one
instruction shorter and that there is no report (`Core.step_refused`). So whatever is asked of the
core later, nothing tells that it was ever offered the instruction (`History.call_refused`).

In every state that can be reached this is the one way for a cycle to fail: what the latch or the
station holds decodes (`History.Executable.outcome_eq_error_iff`).
-/

namespace OutOfOrder

namespace Core

variable {c : Core} {source : List Instruction} {i : Instruction}

/-- The dispatch phase without an instruction, and with one that is refused. -/
theorem late_unoffered (ho : c.offered source = none) :
    c.late source = ⟨{ c.settled.issue.core with latch := none }, .ok (none, none), []⟩ := by
  rw [late, ho]
  rfl

theorem late_refused (ho : c.offered source = some i) (hd : i.opcode.decode = none) :
    c.late source =
      ⟨{ c.settled.issue.core with latch := none }, .error (.unrecognizedOpcode i.tag i.opcode),
        []⟩ := by
  rw [late_eq ho, dispatch_refused hd]

section
variable {issued : Option Tag} (hi : c.settled.issue.answer = .ok issued) (hl : c.latch = none)
include hi hl

/-- A cycle with an empty latch and an empty source. -/
theorem step_empty :
    c.step [] =
      ⟨{ c.settled.issue.core with latch := none }, [], c.begun.deliver.core.retire.answer,
        .ok (c.report issued none none),
        c.early ++ if c.settled.issue.core.tracing then
          [.snapshot (c.stats.cycles + 1) c.settled.issue.core.station c.settled.issue.core.bus]
        else []⟩ := by
  have hlate : c.late [] = _ := late_unoffered (by rw [offered, hl]; rfl)
  have hcycles := c.cycles_late []
  rw [hlate] at hcycles
  rw [step_eq, hi, hlate]
  dsimp only at hcycles ⊢
  rw [hcycles, List.append_nil, if_pos (by rw [hl]; rfl)]
  rfl

/-- A cycle that is offered an instruction which does not decode, by the same cycle with an empty
source. -/
theorem step_refused (hs : source.head? = some i) (hd : i.opcode.decode = none) :
    c.step source =
      { c.step [] with
        source := source.tail
        outcome := .error (.unrecognizedOpcode i.tag i.opcode)
        events := c.early } := by
  have hlate : c.late source = _ := late_refused (by rw [offered, hl, hs]; rfl) hd
  rw [step_empty hi hl, step_eq, hi, hlate]
  dsimp only
  rw [List.append_nil, if_pos (by rw [hl]; rfl)]

end

end Core

namespace History

variable {config : Config} {h : History}

/-- Nothing that is asked later can tell a refused instruction from an empty source. -/
theorem call_refused (hs : Sound config h) (hl : h.core.latch = none) {source : List Instruction}
    {i : Instruction} (hi : source.head? = some i) (hd : i.opcode.decode = none) :
    h.call (.step source) = h.call (.step []) := by
  obtain ⟨issued, hissue⟩ := Simulator.Fed.issue_ok hs
  have hstep := Core.step_refused hissue hl hi hd
  have hempty := Core.step_empty hissue hl
  have hinstalls : (h.core.step source).installs = (h.core.step []).installs := by
    rw [hstep, hempty]
    rfl
  have hnone : (h.core.step []).installs = false := by
    rw [hempty]
    rfl
  rw [call, call, h.core.step_issued, h.core.step_issued, hinstalls, hnone, hstep]
  rfl

/-- A cycle fails exactly if it has to fetch and fetches an instruction that does not decode. -/
theorem Executable.outcome_eq_error_iff (hx : Executable config h) (source : List Instruction)
    (e : CoreError) :
    (h.core.step source).outcome = .error e ↔
      h.core.latch = none ∧ ∃ i, source.head? = some i ∧ i.opcode.decode = none ∧
        e = .unrecognizedOpcode i.tag i.opcode := by
  obtain ⟨issued, hissue⟩ := Simulator.Fed.issue_ok hx.toSound
  constructor
  · intro he
    obtain ⟨i, ho, hd, rfl⟩ := Core.step_error hissue he
    rcases Option.or_eq_some_iff.1 ho with hl | ⟨hl, hs⟩
    · -- what is latched decodes
      have := hx.latch i hl
      rw [hd] at this
      cases this
    · exact ⟨hl, i, hs, hd, rfl⟩
  · rintro ⟨hl, i, hs, hd, rfl⟩
    rw [Core.step_refused hissue hl hs hd]

end History

/-- In every state that any calls lead to: a cycle with an empty latch whose source supplies an
instruction that does not decode fails with the tag and the opcode of that instruction. It leaves
the whole core, with its latch empty, and the log of what has retired as the cycle with an empty
source leaves them, which does not fail, and it takes that one instruction from the source; what it
tells is the same too, but that a traced cycle goes on to tell of the state in which it ended. No
other cycle fails. -/
theorem refused_leaves_no_trace {config : Config} (valid : config.validate = .ok ()) :
    ∃ core, Core.ofConfig config = .ok core ∧
      ∀ calls source,
        let h := (History.start core).run calls
        let refused := h.core.step source
        let empty := h.core.step []
        (∀ i, h.core.latch = none → source.head? = some i → i.opcode.decode = none →
          refused.outcome = .error (.unrecognizedOpcode i.tag i.opcode) ∧
          refused.source = source.tail ∧
          refused.core = empty.core ∧ refused.retired = empty.retired ∧
          h.call (.step source) = h.call (.step []) ∧
          empty.core.latch = none ∧ (∃ report, empty.outcome = .ok report) ∧
          empty.events = refused.events ++ if empty.core.tracing then
            [.snapshot empty.core.stats.cycles empty.core.station empty.core.bus] else []) ∧
        ∀ e, refused.outcome = .error e ↔
          h.core.latch = none ∧ ∃ i, source.head? = some i ∧ i.opcode.decode = none ∧
            e = .unrecognizedOpcode i.tag i.opcode := by
  obtain ⟨core, hcore, hf⟩ := Core.ofConfig_fresh valid
  refine ⟨core, hcore, ?_⟩
  intro calls source h refused empty
  have hx : History.Executable config h := (History.Executable.start valid hf).run calls
  refine ⟨fun i hl hs hd => ?_, hx.outcome_eq_error_iff source⟩
  obtain ⟨issued, hissue⟩ := Simulator.Fed.issue_ok hx.toSound
  have hrefused := Core.step_refused hissue hl hs hd
  have hempty := Core.step_empty hissue hl
  have hcycles : empty.core.stats.cycles = h.core.stats.cycles + 1 := h.core.cycles_step []
  change refused = _ at hrefused
  change empty = _ at hempty
  rw [hcycles, hrefused]
  refine ⟨rfl, rfl, rfl, rfl, History.call_refused hx.toSound hl hs hd, ?_⟩
  rw [hempty]
  exact ⟨rfl, ⟨_, rfl⟩, rfl⟩

/-- One instruction is broadcast and retires, and the next is issued, in the cycle that fetches the
one that does not decode. -/
theorem refused_leaves_no_trace_busy :
    ∃ core, Core.ofConfig { stationEntries := 2, tracing := true } = .ok core ∧
      let i n := Instruction.of (.alu .add) n (.ready 2) (.ready 3) (.ready 0)
      let bad : Instruction := ⟨⟨0⟩, ⟨7⟩, (i 7).operands⟩
      let h := (History.start core).run [.dispatch (i 0), .step [i 1], .step [i 2]]
      let refused := h.core.step [bad, i 3]
      let empty := h.core.step []
      h.core.latch = none ∧ bad.opcode.decode = none ∧
        refused.retired.map (·.tag) = some ⟨1⟩ ∧
        refused.core.bus.pending.map (·.tag) = some ⟨2⟩ ∧
        refused.outcome = .error (.unrecognizedOpcode ⟨7⟩ ⟨0⟩) ∧ refused.source = [i 3] ∧
        refused.core = empty.core ∧ refused.retired = empty.retired ∧
        h.call (.step [bad, i 3]) = h.call (.step []) := by
  obtain ⟨core, hc, hl⟩ := refused_leaves_no_trace
    (show Config.validate { stationEntries := 2, tracing := true } = .ok () by decide)
  obtain rfl := Except.ok.inj (hc.symm.trans rfl)
  refine ⟨_, hc, ?_⟩
  intro i bad h refused empty
  have hlatch : h.core.latch = none := by decide +kernel
  have hbad : bad.opcode.decode = none := by decide
  obtain ⟨hout, hsource, hcore, hretired, hcall, -⟩ :=
    (hl [.dispatch (i 0), .step [i 1], .step [i 2]] [bad, i 3]).1 bad hlatch rfl hbad
  exact ⟨hlatch, hbad, by decide +kernel, by decide +kernel, hout, hsource, hcore, hretired,
    hcall⟩

end OutOfOrder
