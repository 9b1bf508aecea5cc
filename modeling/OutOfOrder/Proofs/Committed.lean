import Mathlib
import OutOfOrder.Proofs.InFlight

/-!
# Committed results are current

The table of committed results is said in terms of what was installed and what has retired: a tag
has an outcome in it exactly if the last instruction installed under the tag has retired, and then
it is the outcome that this one retired with (`Located.lookup_eq_some_iff`). An instruction that is
installed reads the table before its own tag is taken out of it, and in a cycle it finds there what
has retired in that same cycle (`Located.resolve_of_retired`).
-/

namespace OutOfOrder

/-- Place `n` is the last one that carries the tag. -/
def LastAt (tags : List Tag) (t : Tag) (n : Nat) : Prop :=
  tags[n]? = some t ∧ t ∉ tags.drop (n + 1)

instance (tags : List Tag) (t : Tag) (n : Nat) : Decidable (LastAt tags t n) :=
  inferInstanceAs (Decidable (tags[n]? = some t ∧ t ∉ tags.drop (n + 1)))

namespace LastAt

variable {tags : List Tag} {t u : Tag} {n : Nat}

theorem lt_length (h : LastAt tags t n) : n < tags.length := (List.getElem?_eq_some_iff.1 h.1).1

theorem append_iff {more : List Tag} (hn : n < tags.length) :
    LastAt (tags ++ more) t n ↔ LastAt tags t n ∧ t ∉ more := by
  unfold LastAt
  rw [List.getElem?_append_left hn, List.drop_append_of_le_length (by omega), List.mem_append,
    not_or, and_assoc]

theorem concat_iff :
    LastAt (tags ++ [u]) t n ↔ if u = t then n = tags.length else LastAt tags t n := by
  by_cases hn : n < tags.length
  · rw [append_iff hn]
    split
    · rename_i hu
      simp [hu]
      omega
    · rename_i hu
      simp [Ne.symm hu]
  · constructor
    · intro h
      obtain rfl : n = tags.length := by
        have := h.lt_length
        rw [List.length_append, List.length_singleton] at this
        omega
      have hu : u = t := by
        have := h.1
        rwa [List.getElem?_concat_length, Option.some.injEq] at this
      rw [if_pos hu]
    · intro h
      split at h
      · rename_i hu
        subst hu h
        exact ⟨List.getElem?_concat_length, by simp⟩
      · exact absurd h.lt_length hn

end LastAt

/-- The latest holder of a tag stands in the last place that carries it. -/
theorem ReorderBuffer.latest_eq_some_iff {done : List Entry} {t : Tag} {e : Entry} :
    latest done t = some e ↔ ∃ n, LastAt (done.map (·.tag)) t n ∧ done[n]? = some e := by
  induction done using List.reverseRecOn with
  | nil => simp [latest]
  | append_singleton done x ih =>
    simp only [latest_append_singleton, List.map_append, List.map_singleton, LastAt.concat_iff]
    split
    · simp
    · rw [ih]
      refine exists_congr fun n => and_congr_right fun hl => ?_
      rw [List.getElem?_append_left (by simpa using hl.lt_length)]

namespace History.Located

variable {config : Config} {h : History}

/-- A tag has a committed outcome exactly if its last holder has retired, and it is the outcome with
which that one retired. -/
theorem lookup_eq_some_iff (hl : Located config h) {t : Tag} {o : Outcome} :
    h.core.committed.lookup t = some o ↔
      ∃ n e, LastAt (h.installed.map (·.tag)) t n ∧ h.retired[n]? = some e ∧ e.outcome = o := by
  have hplace : ∀ n, n < h.retired.length →
      (LastAt (h.installed.map (·.tag)) t n ↔
        LastAt (h.retired.map (·.tag)) t n ∧ t ∉ h.core.buffer.entries.map (·.tag)) := by
    intro n hn
    rw [← hl.log_tags, List.map_append]
    exact LastAt.append_iff (by simpa using hn)
  rw [hl.committed]
  constructor
  · intro ho
    split at ho
    · cases ho
    · rename_i ht
      obtain ⟨e, he, rfl⟩ := Option.map_eq_some_iff.1 ho
      obtain ⟨n, hlast, hn⟩ := ReorderBuffer.latest_eq_some_iff.1 he
      have hlt := (List.getElem?_eq_some_iff.1 hn).1
      exact ⟨n, e, (hplace n hlt).2 ⟨hlast, ht⟩, hn, rfl⟩
  · rintro ⟨n, e, hlast, hn, rfl⟩
    have hlt := (List.getElem?_eq_some_iff.1 hn).1
    obtain ⟨hlast, ht⟩ := (hplace n hlt).1 hlast
    rw [if_neg ht, ReorderBuffer.latest_eq_some_iff.2 ⟨n, hlast, hn⟩]
    rfl

/-- Dispatch gives a waiting operand the value, or the flags, that the last holder of its tag retired
with. -/
theorem resolve_of_retired (hl : Located config h) {slot : Operand} (hw : slot.waiting = true)
    {n : Nat} {e : ReorderBuffer.Entry} (hlast : LastAt (h.installed.map (·.tag)) slot.tag n)
    (hn : h.retired[n]? = some e) (k : Input) :
    (h.core.resolve k slot).1 =
      { slot with
        waiting := false, value := if k = .f then e.outcome.flags else e.outcome.value } := by
  have hc := hl.lookup_eq_some_iff.2 ⟨n, e, hlast, hn, rfl⟩
  have ht : slot.tag ∉ h.core.buffer.entries.map (·.tag) := by
    intro ht
    have := hl.committed slot.tag
    rw [if_pos ht, hc] at this
    cases this
  have hs : h.core.supply? slot.tag = some (.committed e.outcome) := by
    rw [Core.supply?, ReorderBuffer.lookup_of_not_mem ht, hc]
    rfl
  simp [Core.resolve, hw, hs, Operand.resolve, Operand.waitsOn, Supply.outcome, Outcome.read_eq]

end History.Located

/-! ## Never stale and never missing -/

/-- As long as equal tags are installed at least a window apart, a tag has a committed outcome
exactly if its last holder has retired, and it is the one with which that entry was handed over. A
call that installs an instruction takes the tag's own outcome out of the table, but only after the
operands have been read: each that waits on a tag whose last holder has retired by then, be it in
the same cycle or under the tag of the instruction itself, is given that outcome. -/
theorem committed_iff_last_retired {config : Config} (valid : config.validate = .ok ()) :
    ∃ core, Core.ofConfig config = .ok core ∧
      ∀ calls, let h := (History.start core).run calls
        Spaced core.tags.window (h.installed.map (·.tag)) →
          h.retired.map (·.key) <+: h.installed.map (·.key) ∧
          (∀ t o, h.core.committed.lookup t = some o ↔
            ∃ n e, LastAt (h.installed.map (·.tag)) t n ∧ h.retired[n]? = some e ∧
              e.outcome = o) ∧
          ∀ c i, let after := h.call c
            after.installed = h.installed ++ [i] →
              after.core.committed.lookup i.tag = none ∧
              ∃ s ∈ after.core.station.live, s.tag = i.tag ∧
                ∀ k n e, (i.operands.get k).waiting = true →
                  LastAt (h.installed.map (·.tag)) (i.operands.get k).tag n →
                  after.retired[n]? = some e →
                  s.operands.get k =
                    { i.operands.get k with
                      waiting := false
                      value := if k = .f then e.outcome.flags else e.outcome.value } := by
  obtain ⟨core, hcore, hf⟩ := Core.ofConfig_fresh valid
  refine ⟨core, hcore, ?_⟩
  intro calls h hw
  have hl := History.Located.run valid hf calls hw
  refine ⟨?_, fun t o => hl.lookup_eq_some_iff, ?_⟩
  · rw [← hl.log, List.map_append]
    exact List.prefix_append ..
  intro c i after hi
  obtain ⟨g, hg, hgi, hroom, -, hkept⟩ := History.call_eq_install hi
  have hlg : History.Located config g := hkept (History.Located.kept valid hf.tags) hw hl
  have hafter : after = g.install i := hg
  rw [hafter]
  constructor
  · exact (Committed.lookup_reclaim ..).trans (if_pos rfl)
  refine ⟨.ofInstruction (g.core.resolved i), ?_, rfl, ?_⟩
  · exact (Station.live_push hlg.counted hroom _).symm.subset List.mem_cons_self
  · intro k n e hk hlast hn
    rw [← hgi] at hlast
    exact (Core.get_resolved ..).trans (hlg.resolve_of_retired hk hlast hn k)

/-- With a window of two, a third instruction takes tag 0 again in the cycle in which the first one
retires, and reads its sum. Before that cycle nothing is committed, and after three more the table
has the outcomes of the second and the third. -/
theorem committed_iff_last_retired_reuse :
    ∃ core, Core.ofConfig { bufferEntries := 3, tagBits := 2 } = .ok core ∧
      let i n a := Instruction.of (.alu .add) n a (.ready 2) (.ready 0)
      let calls := [.dispatch (i 0 (.ready 1)), .dispatch (i 1 (.waitingOn ⟨0⟩)), .step []]
      let h := (History.start core).run calls
      let after := h.call (.step [i 0 (.waitingOn ⟨0⟩)])
      let final := (History.start core).run
        (calls ++ [.step [i 0 (.waitingOn ⟨0⟩)], .step [], .step [], .step []])
      h.core.committed.lookup ⟨0⟩ = none ∧ after.retired.map (·.tag) = [⟨0⟩] ∧
        (∃ s ∈ after.core.station.live, s.tag = ⟨0⟩ ∧ s.operands.get .a = ⟨false, ⟨0⟩, 3⟩) ∧
        final.core.committed.lookup ⟨0⟩ = some ⟨5, 0⟩ ∧
        final.core.committed.lookup ⟨1⟩ = some ⟨5, 0⟩ := by
  obtain ⟨core, hc, h⟩ := committed_iff_last_retired
    (show Config.validate { bufferEntries := 3, tagBits := 2 } = .ok () by decide)
  obtain rfl := Except.ok.inj (hc.symm.trans rfl)
  refine ⟨_, hc, ?_⟩
  intro i calls h' after final
  obtain ⟨-, -, hread⟩ := h calls (by decide +kernel)
  obtain ⟨-, hlast, -⟩ := h (calls ++ [.step [i 0 (.waitingOn ⟨0⟩)], .step [], .step [], .step []])
    (by decide +kernel)
  obtain ⟨-, s, hs, ht, hops⟩ :=
    hread (.step [i 0 (.waitingOn ⟨0⟩)]) (i 0 (.waitingOn ⟨0⟩)) (by decide +kernel)
  have hfirst := hops .a 0 ⟨false, (i 0 (.ready 1)).opcode, ⟨0⟩, ⟨3, 0⟩⟩ rfl (by decide +kernel)
    (by decide +kernel)
  have h0 := (hlast ⟨0⟩ ⟨5, 0⟩).2 ⟨2, ⟨false, (i 0 (.ready 1)).opcode, ⟨0⟩, ⟨5, 0⟩⟩,
    by decide +kernel, by decide +kernel, rfl⟩
  have h1 := (hlast ⟨1⟩ ⟨5, 0⟩).2 ⟨1, ⟨false, (i 0 (.ready 1)).opcode, ⟨1⟩, ⟨5, 0⟩⟩,
    by decide +kernel, by decide +kernel, rfl⟩
  exact ⟨by decide +kernel, by decide +kernel, ⟨s, hs, ht, hfirst⟩, h0, h1⟩

end OutOfOrder
