import Mathlib
import OutOfOrder.Proofs.Awaited
import OutOfOrder.Proofs.Causality
import OutOfOrder.Proofs.Feed

/-!
# The counters balance

The counters of a core are bumped in one place and the structures that they speak of are changed in
another. `Balanced` ties them together: what was dispatched is in the station or was issued, and is
in the buffer or has retired; what was issued is on the bus or was broadcast; every cycle issues or
is idle; every operand that was given waiting has been filled by one of three ways or still waits;
and what is complete has been paid for by a broadcast. It holds of every run, whatever the run is
fed, and each phase keeps it on its own. Only a cycle that has begun owes an issue, or an idle
turn, until its issue phase is over.
-/

namespace OutOfOrder

/-! ## What a phase counts -/

namespace Core

theorem execute_counts (c : Core) (op : Operation) (r : Request) :
    ∃ predictor alu branch hit miss,
      (c.execute op r).core =
        { c with
          predictor
          stats :=
            { c.stats with
              aluIssued := c.stats.aluIssued + alu
              branchIssued := c.stats.branchIssued + branch
              predicted := c.stats.predicted + hit
              mispredicted := c.stats.mispredicted + miss } } ∧
        alu + branch = 1 ∧ branch = hit + miss := by
  cases op with
  | alu op => exact ⟨c.predictor, 1, 0, 0, 0, rfl, rfl, rfl⟩
  | branch condition =>
    cases hm : (c.predictor.resolve condition r.operands.f).1.mispredicted with
    | true => exact ⟨_, 0, 1, 0, 1, by simp only [execute, hm]; rfl, rfl, rfl⟩
    | false => exact ⟨_, 0, 1, 1, 0, by simp only [execute, hm]; rfl, rfl, rfl⟩

/-- An issue phase counts an idle turn, or one instruction of either unit. -/
theorem issue_counts {c : Core} (hd : ∀ e ∈ c.station.live, e.opcode.decode.isSome = true) :
    (c.station.issue = none ∧
        c.issue.core = { c with stats := { c.stats with issueIdle := c.stats.issueIdle + 1 } }) ∨
      ∃ r station result predictor alu branch hit miss, c.station.issue = some (r, station) ∧
        c.issue.core =
          { c with
            station, predictor
            bus := (c.bus.latch result).1
            stats :=
              { c.stats with
                issued := c.stats.issued + 1
                aluIssued := c.stats.aluIssued + alu
                branchIssued := c.stats.branchIssued + branch
                predicted := c.stats.predicted + hit
                mispredicted := c.stats.mispredicted + miss } } ∧
        alu + branch = 1 ∧ branch = hit + miss := by
  cases hi : c.station.issue with
  | none => exact .inl ⟨rfl, by rw [issue_none hi]⟩
  | some p =>
    obtain ⟨r, station⟩ := p
    obtain ⟨e, -, -, hp, -, -, hl, -⟩ := Station.issue_eq_some hi
    obtain ⟨op, hop⟩ := Option.isSome_iff_exists.1 (hd e (hl.symm.subset List.mem_cons_self))
    have hc : c.issue.core =
        let done := { c with station }.execute op r
        { done.core with
          bus := (done.core.bus.latch ⟨r.tag, done.answer⟩).1
          stats := { done.core.stats with issued := done.core.stats.issued + 1 } } := by
      simp [issue, hi, hp, hop]
    obtain ⟨predictor, alu, branch, hit, miss, he, h1, h2⟩ := execute_counts { c with station } op r
    refine .inr ⟨r, station, ⟨r.tag, ({ c with station }.execute op r).answer⟩, predictor, alu,
      branch, hit, miss, rfl, ?_, h1, h2⟩
    rw [hc]
    dsimp only
    rw [he]

theorem retire_counts (c : Core) :
    (c.buffer.retire = none ∧ ∃ stalls,
        c.retire.core = { c with stats := { c.stats with retireStalls := stalls } }) ∨
      ∃ e buffer, c.buffer.retire = some (e, buffer) ∧
        c.retire.core =
          { c with
            buffer
            committed := c.committed.commit e.tag e.outcome
            stats := { c.stats with retired := c.stats.retired + 1 } } := by
  cases h : c.buffer.retire with
  | none =>
    refine .inl ⟨rfl, ?_⟩
    simp only [retire, h]
    split
    · exact ⟨c.stats.retireStalls, rfl⟩
    · exact ⟨_, rfl⟩
  | some p => exact .inr ⟨p.1, p.2, rfl, by rw [retire_some h]⟩

/-- A dispatch counts a stall at most, or installs its instruction. -/
theorem dispatch_counts (c : Core) (i : Instruction) :
    ((c.dispatch i).installs = false ∧ ∃ stationStalls bufferStalls,
        (c.dispatch i).core = { c with stats := { c.stats with stationStalls, bufferStalls } }) ∨
      (c.station.isFull = false ∧ c.buffer.isFull = false ∧ (c.dispatch i).installs = true ∧
        (c.dispatch i).core = c.install i) := by
  cases hd : i.opcode.decode with
  | none =>
    rw [dispatch_refused hd]
    exact .inl ⟨rfl, _, _, rfl⟩
  | some op =>
    have hd : i.opcode.decode.isSome = true := by rw [hd]; rfl
    cases hs : c.station.isFull with
    | true =>
      rw [dispatch_stationFull hd hs]
      exact .inl ⟨rfl, _, _, rfl⟩
    | false =>
      cases hf : c.buffer.isFull with
      | true =>
        rw [dispatch_bufferFull hd hs hf]
        exact .inl ⟨rfl, _, _, rfl⟩
      | false =>
        rw [dispatch_room hd hs hf]
        exact .inr ⟨rfl, rfl, rfl, rfl⟩

/-- After its issue phase a cycle is done, or dispatches what it was offered and sets its latch. -/
theorem step_dispatch {c : Core} {issued : Option Tag} (hi : c.settled.issue.answer = .ok issued)
    (source : List Instruction) :
    (c.offered source = none ∧ (c.step source).installs = false ∧
        (c.step source).core = { c.settled.issue.core with latch := none }) ∨
      ∃ i latch, c.offered source = some i ∧
        (c.step source).installs =
          ({ c.settled.issue.core with latch := none }.dispatch i).installs ∧
        (c.step source).core =
          { ({ c.settled.issue.core with latch := none }.dispatch i).core with latch } := by
  rw [step_eq, hi]
  cases ho : c.offered source with
  | none =>
    refine .inl ⟨rfl, ?_⟩
    obtain ⟨-, he⟩ | ⟨i, hn, -⟩ := c.late_cases source
    · rw [he]
      exact ⟨rfl, rfl⟩
    · rw [ho] at hn
      cases hn
  | some i =>
    have hlate := late_eq ho
    dsimp only at hlate ⊢
    cases hd : ({ c.settled.issue.core with latch := none }.dispatch i).answer with
    | error e =>
      rw [hd] at hlate
      rw [hlate]
      exact .inr ⟨i, _, rfl, by rw [After.installs, hd]; rfl, rfl⟩
    | ok stall =>
      rw [hd] at hlate
      cases stall <;> rw [hlate] <;> exact .inr ⟨i, _, rfl, by rw [After.installs, hd]; rfl, rfl⟩

end Core

/-! ## The laws -/

namespace ReorderBuffer

/-- Completion makes at most one entry complete. -/
theorem countP_done_complete_le (b : ReorderBuffer) (r : Result) :
    (b.complete r).1.entries.countP (!·.waiting) ≤ b.entries.countP (!·.waiting) + 1 := by
  rw [entries_complete]
  split
  · exact Nat.le_succ _
  · exact countP_modify_le _ _ fun e _ => Nat.le_add_left_of_le (by split_ifs <;> omega)

end ReorderBuffer

theorem ResultBus.length_pending (bus : ResultBus) :
    bus.pending.toList.length = if bus.isFree then 0 else 1 := by
  obtain ⟨pending⟩ := bus
  cases pending <;> rfl

namespace Core

/-- What a core has counted agrees with what it holds; `owed` is the number of cycles that have
begun and had no issue phase yet. -/
structure Balanced (owed : Nat) (c : Core) : Prop where
  station : c.stats.dispatched = c.stats.issued + c.station.live.length
  buffer : c.stats.dispatched = c.stats.retired + c.buffer.entries.length
  bus : c.stats.issued = c.stats.broadcasts + c.bus.pending.toList.length
  units : c.stats.issued = c.stats.aluIssued + c.stats.branchIssued
  branches : c.stats.branchIssued = c.stats.predicted + c.stats.mispredicted
  turns : c.stats.cycles = c.stats.issued + c.stats.issueIdle + owed
  paid : c.stats.retired + c.buffer.entries.countP (!·.waiting) ≤ c.stats.broadcasts

namespace Balanced

variable {owed : Nat} {c : Core}

theorem relatch (hb : c.Balanced owed) (latch : Option Instruction) :
    { c with latch }.Balanced owed :=
  ⟨hb.station, hb.buffer, hb.bus, hb.units, hb.branches, hb.turns, hb.paid⟩

theorem begun (hb : c.Balanced owed) : c.begun.Balanced (owed + 1) :=
  ⟨hb.station, hb.buffer, hb.bus, hb.units, hb.branches, congrArg (· + 1) hb.turns, hb.paid⟩

theorem deliver (hb : c.Balanced owed) : c.deliver.core.Balanced owed := by
  cases h : c.bus.pending with
  | none => rwa [deliver_idle h]
  | some r =>
    have hstation := hb.station
    have hbuffer := hb.buffer
    have hbus := hb.bus
    have hpaid := hb.paid
    have hlive : (c.station.wake r).1.live.length = c.station.live.length := by simp
    have hlen := c.buffer.length_complete r
    have hcount := c.buffer.countP_done_complete_le r
    rw [h, Option.toList_some, List.length_singleton] at hbus
    rw [deliver_busy h]
    refine ⟨?_, ?_, hbus, hb.units, hb.branches, hb.turns, ?_⟩ <;> dsimp only <;> omega

theorem retire (hb : c.Balanced owed) : c.retire.core.Balanced owed := by
  obtain ⟨-, stalls, he⟩ | ⟨e, buffer, hr, he⟩ := c.retire_counts
  · rw [he]
    exact ⟨hb.station, hb.buffer, hb.bus, hb.units, hb.branches, hb.turns, hb.paid⟩
  · obtain ⟨hl, hw, -⟩ := ReorderBuffer.retire_eq_some hr
    have hbuffer := hb.buffer
    have hpaid := hb.paid
    rw [hl, List.length_cons] at hbuffer
    rw [hl, List.countP_cons_of_pos (by simp [hw])] at hpaid
    rw [he]
    refine ⟨hb.station, ?_, hb.bus, hb.units, hb.branches, hb.turns, ?_⟩ <;> dsimp only <;> omega

theorem issue (hb : c.Balanced (owed + 1)) (hfree : c.bus.pending = none)
    (hd : ∀ e ∈ c.station.live, e.opcode.decode.isSome = true) :
    c.issue.core.Balanced owed := by
  have hturns := hb.turns
  obtain ⟨-, he⟩ | ⟨r, station, result, predictor, alu, branch, hit, miss, hi, he, hunit, hout⟩ :=
    issue_counts hd
  · rw [he]
    refine ⟨hb.station, hb.buffer, hb.bus, hb.units, hb.branches, ?_, hb.paid⟩
    dsimp only
    omega
  · obtain ⟨e, -, -, -, -, -, hl, -⟩ := Station.issue_eq_some hi
    have hstation := hb.station
    have hbus := hb.bus
    have hunits := hb.units
    have hbranches := hb.branches
    rw [hl.length_eq, List.length_cons] at hstation
    rw [hfree, Option.toList_none, List.length_nil] at hbus
    have hlatch : (c.bus.latch result).1.pending.toList.length = 1 := by
      rw [ResultBus.latch, if_pos (by rw [ResultBus.isFree, hfree]; rfl)]
      rfl
    rw [he]
    refine ⟨?_, hb.buffer, ?_, ?_, ?_, ?_, hb.paid⟩ <;> dsimp only <;> omega

theorem dispatch (hb : c.Balanced owed) (hc : c.station.Counted) (i : Instruction) :
    (c.dispatch i).core.Balanced owed := by
  obtain ⟨-, _, _, he⟩ | ⟨hs, hf, -, he⟩ := c.dispatch_counts i
  · rw [he]
    exact ⟨hb.station, hb.buffer, hb.bus, hb.units, hb.branches, hb.turns, hb.paid⟩
  · have hlive : (c.install i).station.live.length = c.station.live.length + 1 :=
      (Station.live_push hc hs (c.resolved i)).length_eq
    have hentries : (c.install i).buffer.entries = c.buffer.entries ++ [.pending i.opcode i.tag] :=
      ReorderBuffer.entries_push _ _ _ hf
    have hcount : (c.install i).buffer.entries.countP (!·.waiting) =
        c.buffer.entries.countP (!·.waiting) := by
      rw [hentries, List.countP_append]
      rfl
    have hdispatched : (c.install i).stats.dispatched = c.stats.dispatched + 1 := rfl
    rw [he]
    refine ⟨?_, ?_, hb.bus, hb.units, hb.branches, hb.turns, hcount ▸ hb.paid⟩
    · rw [hlive, hdispatched, hb.station]
      rfl
    · rw [hentries, List.length_append, hdispatched, hb.buffer]
      rfl

end Balanced

/-! ## The awaited operands -/

theorem accounted_issue {c : Core}
    (hd : ∀ e ∈ c.station.live, e.opcode.decode.isSome = true) :
    c.issue.core.accounted = c.accounted := by
  obtain ⟨-, he⟩ | ⟨r, station, result, predictor, alu, branch, hit, miss, hi, he, -⟩ :=
    issue_counts hd
  · rw [he]
    rfl
  · rw [he, accounted, accounted, ← Station.awaiting_issue hi]

/-- A dispatch adds the waiting operands of what it installs. -/
theorem accounted_dispatch {c : Core} (hc : c.station.Counted) (i : Instruction) :
    (c.dispatch i).core.accounted =
      c.accounted + if (c.dispatch i).installs then i.operands.awaiting else 0 := by
  obtain ⟨hn, _, _, he⟩ | ⟨hs, -, hi, he⟩ := c.dispatch_counts i
  · rw [he, hn]
    rfl
  · rw [he, hi]
    exact accounted_install hc hs i

end Core

/-! ## Every run -/

namespace History

/-- What a history has counted agrees with what its core holds, and with what was installed. -/
structure Balanced (config : Config) (h : History) : Prop extends Sound config h where
  counts : h.core.Balanced 0
  operands : h.core.accounted = (h.installed.map (·.operands.awaiting)).sum

namespace Balanced

variable {config : Config} {h : History}

theorem start {core : Core} (valid : config.validate = .ok ()) (hf : core.Fresh config) :
    Balanced config (History.start core) where
  toSound := .start valid hf
  counts := by
    constructor <;>
      simp [History.start, hf.stats, hf.station, hf.buffer, hf.bus, ReorderBuffer.entries_empty,
        ResultBus.idle]
  operands := by
    simp [History.start, Core.accounted, hf.stats, hf.station, Station.awaiting]

/-- The phases of a cycle before dispatch fill operands, but give out none. -/
theorem settled_issue (hb : Balanced config h) :
    Sound config h.settle.issue ∧ h.core.settled.issue.core.Balanced 0 ∧
      h.core.settled.issue.core.accounted = h.core.accounted := by
  have hsettle : Sound config h.settle := Sound.kept.settle (C := fun _ => True) trivial hb.toSound
  have hcounts : h.core.settled.Balanced 1 := hb.counts.begun.deliver.retire
  refine ⟨Sound.kept.issue (C := fun _ => True) trivial h.pending_settle hsettle,
    hcounts.issue h.pending_settle hsettle.decodes, ?_⟩
  calc h.core.settled.issue.core.accounted
      = h.core.settled.accounted := Core.accounted_issue hsettle.decodes
    _ = h.core.begun.deliver.core.accounted := Core.accounted_retire _
    _ = h.core.begun.accounted := Core.accounted_deliver _
    _ = h.core.accounted := rfl

theorem call (hb : Balanced config h) (c : Call) : Balanced config (h.call c) := by
  have hsound := Sound.kept.call (C := fun _ => True) c trivial hb.toSound
  cases c with
  | dispatch i =>
    refine ⟨hsound, hb.counts.dispatch hb.counted i, ?_⟩
    have hoperands := Core.accounted_dispatch hb.counted i
    rw [hb.operands] at hoperands
    simp only [History.call, List.map_append, List.sum_append]
    rw [hoperands]
    split <;> simp
  | step source =>
    obtain ⟨hsettled, hcounts, hacc⟩ := hb.settled_issue
    obtain ⟨issued, hi⟩ := Simulator.Fed.issue_ok hb.toSound
    rw [hb.operands] at hacc
    obtain ⟨-, hn, he⟩ | ⟨i, latch, ho, hn, he⟩ := Core.step_dispatch hi source
    · refine ⟨hsound, ?_, ?_⟩
      · simp only [History.call, he]
        exact hcounts.relatch none
      · simp only [History.call, he, hn]
        rw [if_neg Bool.false_ne_true, List.append_nil]
        exact hacc
    · have hcounted : { h.core.settled.issue.core with latch := none }.station.Counted :=
        hsettled.counted
      refine ⟨hsound, ?_, ?_⟩
      · simp only [History.call, he]
        exact ((hcounts.relatch none).dispatch hcounted i).relatch latch
      · have hoperands := Core.accounted_dispatch hcounted i
        simp only [History.call, he, hn, ho, List.map_append, List.sum_append]
        refine (hoperands.trans (congrArg (· + _) hacc)).trans ?_
        split <;> simp

theorem run {core : Core} (valid : config.validate = .ok ()) (hf : core.Fresh config)
    (calls : List Call) : Balanced config ((History.start core).run calls) := by
  induction calls using List.reverseRecOn with
  | nil => exact start valid hf
  | append_singleton calls c ih =>
    rw [run_append]
    exact ih.call c

end Balanced

end History

/-- The conservation laws of the statistics, in every state that any calls lead to: what was
dispatched is in the station or was issued, and in the buffer or has retired; what was issued is on
the bus or was broadcast; units, branches and cycles add up; every operand that was waiting at its
dispatch was filled in one of three ways or still waits; and nothing retires that no broadcast has
paid for, whatever tags it carries. -/
theorem counters_balanced {config : Config} (valid : config.validate = .ok ()) :
    ∃ core, Core.ofConfig config = .ok core ∧
      ∀ calls,
        let h := (History.start core).run calls
        let stats := h.core.stats
        let busy := if h.core.bus.isFree then 0 else 1
        stats.dispatched = stats.issued + h.core.station.occupied ∧
        stats.dispatched = stats.retired + h.core.buffer.length ∧
        stats.issued = stats.broadcasts + busy ∧
        stats.issued = stats.aluIssued + stats.branchIssued ∧
        stats.branchIssued = stats.predicted + stats.mispredicted ∧
        stats.cycles = stats.issued + stats.issueIdle ∧
        (h.installed.map (·.operands.awaiting)).sum =
          stats.woken + stats.forwarded + stats.committed + h.core.station.awaiting ∧
        stats.retired ≤ stats.broadcasts ∧
        h.core.station.occupied + busy ≤ h.core.buffer.length ∧
        stats.retired ≤ stats.cycles := by
  obtain ⟨core, hc, hf⟩ := Core.ofConfig_fresh valid
  refine ⟨core, hc, ?_⟩
  intro calls h stats busy
  have hb : h.Balanced config := .run valid hf calls
  have hstation : stats.dispatched = stats.issued + h.core.station.occupied :=
    hb.counts.station.trans (congrArg _ hb.counted.symm)
  have hbuffer : stats.dispatched = stats.retired + h.core.buffer.length :=
    hb.counts.buffer.trans (congrArg _ h.core.buffer.length_entries)
  have hbus : stats.issued = stats.broadcasts + busy :=
    hb.counts.bus.trans (congrArg _ h.core.bus.length_pending)
  have hturns : stats.cycles = stats.issued + stats.issueIdle := hb.counts.turns
  have hpaid : stats.retired ≤ stats.broadcasts := Nat.le_of_add_right_le hb.counts.paid
  exact ⟨hstation, hbuffer, hbus, hb.counts.units, hb.counts.branches, hturns, hb.operands.symm,
    hpaid, by omega, by omega⟩

/-- An instruction that is refused, a tag that is in flight twice, and operands, first and third ones,
that are filled in each of the three ways: of six that were given waiting, two still wait. -/
theorem counters_balanced_mixed :
    ∃ core, Core.ofConfig { stationEntries := 3, bufferEntries := 4, tagBits := 3 } = .ok core ∧
      let i n a f := Instruction.of (.alu .add) n a (.ready 2) f
      let refused : Instruction := { i 5 (.ready 1) (.ready 0) with opcode := ⟨0⟩ }
      let h := (History.start core).run
        [.dispatch (i 0 (.ready 1) (.ready 0)), .dispatch (i 1 (.waitingOn ⟨0⟩) (.waitingOn ⟨0⟩)),
          .step [], .step [refused], .dispatch (i 2 (.waitingOn ⟨7⟩) (.ready 0)),
          .dispatch (i 3 (.ready 1) (.waitingOn ⟨0⟩)), .step [], .step [],
          .dispatch (i 3 (.waitingOn ⟨3⟩) (.waitingOn ⟨2⟩))]
      h.core.stats =
          { cycles := 4, dispatched := 5, issued := 3, retired := 2, broadcasts := 3, woken := 2,
            forwarded := 1, committed := 1, aluIssued := 3, retireStalls := 2, issueIdle := 1 } ∧
        h.core.station.live.map (·.tag) = [⟨2⟩, ⟨3⟩] ∧
        h.core.station.occupied = 2 ∧ h.core.buffer.length = 3 ∧
        h.core.station.awaiting = 2 ∧ (h.installed.map (·.operands.awaiting)).sum = 6 := by
  obtain ⟨core, hc, hl⟩ := counters_balanced
    (show Config.validate { stationEntries := 3, bufferEntries := 4, tagBits := 3 } = .ok () by
      decide)
  obtain rfl := Except.ok.inj (hc.symm.trans rfl)
  refine ⟨_, rfl, ?_⟩
  intro i refused h
  have hstats : h.core.stats =
      { cycles := 4, dispatched := 5, issued := 3, retired := 2, broadcasts := 3, woken := 2,
        forwarded := 1, committed := 1, aluIssued := 3, retireStalls := 2, issueIdle := 1 } := by
    decide +kernel
  obtain ⟨hstation, hbuffer, -, -, -, -, hoperands, -⟩ := hl [.dispatch (i 0 (.ready 1) (.ready 0)),
    .dispatch (i 1 (.waitingOn ⟨0⟩) (.waitingOn ⟨0⟩)), .step [], .step [refused],
    .dispatch (i 2 (.waitingOn ⟨7⟩) (.ready 0)), .dispatch (i 3 (.ready 1) (.waitingOn ⟨0⟩)),
    .step [], .step [], .dispatch (i 3 (.waitingOn ⟨3⟩) (.waitingOn ⟨2⟩))]
  change h.core.stats.dispatched = h.core.stats.issued + h.core.station.occupied at hstation
  change h.core.stats.dispatched = h.core.stats.retired + h.core.buffer.length at hbuffer
  change (h.installed.map (·.operands.awaiting)).sum =
    h.core.stats.woken + h.core.stats.forwarded + h.core.stats.committed + h.core.station.awaiting
    at hoperands
  rw [hstats] at hstation hbuffer hoperands
  dsimp only at hstation hbuffer hoperands
  have hwait : h.core.station.awaiting = 2 := by decide +kernel
  exact ⟨hstats, by decide +kernel, by omega, by omega, hwait, by omega⟩

end OutOfOrder
