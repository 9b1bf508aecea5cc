import Mathlib
import OutOfOrder.Program
import OutOfOrder.Proofs.Awaited
import OutOfOrder.Proofs.Queue
import OutOfOrder.ResultBus

/-!
# Broadcasts

A result is offered to every operand of the station and to one entry of the buffer. Who takes it is
a matter of its tag alone, and does not wait any more afterwards. So a second result with the tag
finds nobody (`Station.wake_again`, `ReorderBuffer.complete_again`), and results with different
tags have nothing to do with each other, in whatever order they come (`Station.wake_comm`,
`ReorderBuffer.complete_comm`). All this is shown of one operand, then of an entry and of the
station.

Tags may come twice in the buffer. Then a result is for the oldest entry with the tag (`Oldest`)
even if that one is complete and a younger one waits.
-/

namespace OutOfOrder

/-! ## Operands -/

namespace Operand

variable (o : Operand) (t : Tag) (v w : Int32)

theorem fst_resolve : (o.resolve t v).1 = if o.waitsOn t then ⟨false, t, v⟩ else o := by
  obtain ⟨hw, ht, h⟩ | ⟨hn, h⟩ := o.resolve_cases t v
  · simp [h, waitsOn, hw, ht]
  · rw [h, if_neg]
    simpa [waitsOn] using hn

theorem snd_resolve : (o.resolve t v).2 = o.waitsOn t := by
  unfold resolve
  cases o.waitsOn t <;> rfl

/-- A result leaves nothing that waits for its tag. -/
theorem resolve_again : (o.resolve t v).1.resolve t w = ((o.resolve t v).1, false) := by
  have : (o.resolve t v).1.waitsOn t = false := by
    rw [fst_resolve]
    cases h : o.waitsOn t with
    | true => rfl
    | false => exact h
  rw [resolve, this, if_neg Bool.false_ne_true]

variable {t} {u : Tag} (h : t ≠ u)
include h

/-- An operand waits for one tag. -/
theorem waitsOn_other (ht : o.waitsOn t = true) : o.waitsOn u = false := by
  simp only [waitsOn, Bool.and_eq_true, beq_iff_eq, Bool.and_eq_false_iff, beq_eq_false_iff_ne] at *
  exact .inr (ht.2 ▸ h)

/-- It does not matter to a tag whether a result with another one came before. -/
theorem waitsOn_resolve : (o.resolve t v).1.waitsOn u = o.waitsOn u := by
  obtain ⟨hw, rfl, he⟩ | ⟨-, he⟩ := o.resolve_cases t v
  · simp [he, waitsOn, h]
  · rw [he]

theorem resolve_comm :
    ((o.resolve t v).1.resolve u w).1 = ((o.resolve u w).1.resolve t v).1 := by
  rw [fst_resolve (o.resolve t v).1, o.waitsOn_resolve v h, fst_resolve (o.resolve u w).1,
    o.waitsOn_resolve w h.symm, fst_resolve, fst_resolve]
  cases ht : o.waitsOn t with
  | false => simp
  | true => simp [o.waitsOn_other h ht]

end Operand

namespace Operands

variable (o : Operands Operand) (x y : Outcome)

theorem snd_resolve (t : Tag) : (o.resolve t x).2 = o.toList.countP (·.waitsOn t) := by
  simp only [resolve, map, toList, List.countP_cons, List.countP_nil, Operand.snd_resolve]

theorem resolve_again (t : Tag) : (o.resolve t x).1.resolve t y = ((o.resolve t x).1, 0) := by
  simp only [resolve, map, toList, Operand.resolve_again]
  rfl

theorem resolve_comm {t u : Tag} (h : t ≠ u) :
    ((o.resolve t x).1.resolve u y).1 = ((o.resolve u y).1.resolve t x).1 := by
  ext k : 1
  simp only [resolve, get_map]
  exact Operand.resolve_comm _ _ _ h

theorem count_resolve_comm {t u : Tag} (h : t ≠ u) :
    ((o.resolve t x).1.resolve u y).2 = (o.resolve u y).2 := by
  rw [snd_resolve, snd_resolve]
  simp only [resolve, map, toList, List.countP_cons, List.countP_nil, Operand.waitsOn_resolve _ _ h]

end Operands

/-! ## The station -/

namespace Station

variable (s : Station) (r q : Result)

namespace Entry

variable (e : Entry)

/-- What an entry is after a result. -/
theorem fst_wake :
    (e.wake r).1 =
      if e.occupied then
        { e with operands := ⟨(e.operands.a.resolve r.tag r.outcome.value).1,
            (e.operands.b.resolve r.tag r.outcome.value).1,
            (e.operands.f.resolve r.tag r.outcome.flags).1⟩ }
      else e := by
  unfold wake
  cases e.occupied <;> rfl

theorem wake_again (x : Outcome) : (e.wake r).1.wake ⟨r.tag, x⟩ = ((e.wake r).1, 0) := by
  unfold wake
  cases ho : e.occupied with
  | false => simp [ho]
  | true => simp [Operands.resolve_again]

variable {r q}

theorem wake_comm (h : r.tag ≠ q.tag) :
    ((e.wake r).1.wake q).1 = ((e.wake q).1.wake r).1 := by
  unfold wake
  cases ho : e.occupied with
  | false => simp [ho]
  | true => simp [Operands.resolve_comm _ _ _ h]

theorem count_wake_comm (h : r.tag ≠ q.tag) : ((e.wake r).1.wake q).2 = (e.wake q).2 := by
  unfold wake
  cases ho : e.occupied with
  | false => simp [ho]
  | true => simp [Operands.count_resolve_comm _ _ _ h]

end Entry

theorem wake_again (x : Outcome) : (s.wake r).1.wake ⟨r.tag, x⟩ = ((s.wake r).1, 0) := by
  refine Prod.ext ?_ ?_
  · rw [fst_wake, fst_wake, List.map_map]
    refine congrArg (fun slots : List Entry => { s with slots }) (List.map_congr_left ?_)
    intro e _
    rw [Function.comp_apply, e.wake_again]
  · rw [wake_count, live_wake, List.map_map]
    refine List.sum_eq_zero fun n hn => ?_
    obtain ⟨e, -, rfl⟩ := List.mem_map.1 hn
    exact congrArg Prod.snd (e.wake_again r x)

variable {r q}

theorem wake_comm (h : r.tag ≠ q.tag) :
    ((s.wake r).1.wake q).1 = ((s.wake q).1.wake r).1 := by
  simp only [fst_wake, List.map_map]
  refine congrArg (fun slots : List Entry => { s with slots }) (List.map_congr_left ?_)
  exact fun e _ => e.wake_comm h

theorem count_wake_comm (h : r.tag ≠ q.tag) : ((s.wake r).1.wake q).2 = (s.wake q).2 := by
  rw [wake_count, wake_count, live_wake, List.map_map]
  exact congrArg List.sum (List.map_congr_left fun e _ => e.count_wake_comm h)

/-- What a broadcast counts: the operands of live entries that wait for its tag. -/
theorem wake_count_eq (s : Station) (r : Result) :
    (s.wake r).2 = (s.live.flatMap (·.operands.toList)).countP (·.waitsOn r.tag) := by
  rw [wake_count, List.countP_flatMap]
  refine congrArg List.sum (List.map_congr_left fun e he => ?_)
  rw [Entry.wake, if_pos (occupied_of_mem_live he)]
  exact Operands.snd_resolve _ _ _

end Station

/-! ## The buffer -/

namespace ReorderBuffer

/-- The entry at this place carries the tag, and no older one does. -/
def Oldest (b : ReorderBuffer) (t : Tag) (i : ℕ) (e : Entry) : Prop :=
  b.entries[i]? = some e ∧ e.tag = t ∧ t ∉ (b.entries.take i).map (·.tag)

variable {b : ReorderBuffer} {r q : Result}

theorem Oldest.lt_length {t : Tag} {i : ℕ} {e : Entry} (h : b.Oldest t i e) : i < b.length := by
  simpa using (List.getElem?_eq_some_iff.1 h.1).1

/-- Entries with different tags stand at different places. -/
theorem Oldest.ne {t u : Tag} {i j : ℕ} {e x : Entry} (hi : b.Oldest t i e) (hj : b.Oldest u j x)
    (h : t ≠ u) : i ≠ j := by
  rintro rfl
  have hex : e = x := Option.some.inj (hi.1.symm.trans hj.1)
  exact h (hi.2.1.symm.trans (hex ▸ hj.2.1))

/-- A result whose tag no entry carries completes nothing. -/
theorem complete_of_not_mem (h : r.tag ∉ b.entries.map (·.tag)) : b.complete r = (b, false) := by
  have : b.entries.findIdx? (·.tag == r.tag) = none := by
    rw [List.findIdx?_eq_none_iff]
    intro e he
    simpa using fun ht => h (List.mem_map.2 ⟨e, he, ht⟩)
  rw [complete_eq, this]

theorem findIdx?_eq_some_iff {t : Tag} {i : ℕ} :
    b.entries.findIdx? (·.tag == t) = some i ↔ ∃ e, b.Oldest t i e := by
  rw [List.findIdx?_eq_some_iff_getElem]
  constructor
  · rintro ⟨hi, ht, hfirst⟩
    refine ⟨_, List.getElem?_eq_getElem hi, by simpa using ht, fun hm => ?_⟩
    obtain ⟨x, hx, rfl⟩ := List.mem_map.1 hm
    obtain ⟨j, hj, rfl⟩ := List.mem_take_iff_getElem.1 hx
    have := hfirst j (by omega)
    simp at this
  · rintro ⟨e, hi, rfl, hfirst⟩
    obtain ⟨hlt, he⟩ := List.getElem?_eq_some_iff.1 hi
    refine ⟨hlt, by simp [he], fun j hj hx => ?_⟩
    refine hfirst (List.mem_map.2 ⟨b.entries[j], ?_, by simpa using hx⟩)
    exact List.mem_take_iff_getElem.2 ⟨j, by omega, rfl⟩

theorem complete_of_oldest {i : ℕ} {e : Entry} (h : b.Oldest r.tag i e) :
    b.complete r = if e.waiting then (b.set i (e.complete r.outcome), true) else (b, false) := by
  obtain ⟨hlt, he⟩ := List.getElem?_eq_some_iff.1 h.1
  rw [complete_eq, findIdx?_eq_some_iff.2 ⟨e, h⟩]
  dsimp only
  rw [b.entry_eq_getElem hlt, he]

theorem exists_oldest {t : Tag} (h : t ∈ b.entries.map (·.tag)) : ∃ i e, b.Oldest t i e := by
  cases hfind : b.entries.findIdx? (·.tag == t) with
  | none =>
    obtain ⟨e, he, rfl⟩ := List.mem_map.1 h
    have := List.findIdx?_eq_none_iff.1 hfind e he
    simp at this
  | some i => exact ⟨i, findIdx?_eq_some_iff.1 hfind⟩

/-- A result for an entry that waits completes it, and nothing else of the buffer changes. -/
theorem Oldest.fate {i : ℕ} {e : Entry} (h : b.Oldest r.tag i e) :
    (b.complete r).2 = e.waiting ∧
      (b.complete r).1.entries =
        b.entries.set i (if e.waiting then ⟨false, e.opcode, e.tag, r.outcome⟩ else e) ∧
      (b.complete r).1.head = b.head ∧ (b.complete r).1.tail = b.tail ∧
      ∀ n, n ≠ b.position i → (b.complete r).1.cells[n]? = b.cells[n]? := by
  obtain ⟨hlt, he⟩ := List.getElem?_eq_some_iff.1 h.1
  rw [complete_of_oldest h]
  cases e.waiting with
  | false =>
    have hsame : b.entries.set i e = b.entries := by rw [← he, List.set_getElem_self]
    exact ⟨rfl, hsame.symm, rfl, rfl, fun _ _ => rfl⟩
  | true =>
    exact ⟨rfl, b.entries_set h.lt_length _, rfl, rfl,
      fun n hn => Array.getElem?_set_ne (b.position_lt i) hn.symm⟩

/-- The entry that a result finds is still there after another one. -/
theorem Oldest.complete {i : ℕ} {e : Entry} (h : b.Oldest r.tag i e) (hne : r.tag ≠ q.tag) :
    (b.complete q).1.Oldest r.tag i e := by
  refine ⟨?_, h.2.1, by rw [List.map_take, map_tag_complete, ← List.map_take]; exact h.2.2⟩
  by_cases hq : q.tag ∈ b.entries.map (·.tag)
  · obtain ⟨j, x, hj⟩ := exists_oldest hq
    rw [hj.fate.2.1, List.getElem?_set_ne (hj.ne h hne.symm)]
    exact h.1
  · rw [complete_of_not_mem hq]
    exact h.1

theorem set_comm {i j : ℕ} (hi : i < b.length) (hj : j < b.length) (h : i ≠ j) (x y : Entry) :
    (b.set i x).set j y = (b.set j y).set i x := by
  have hne : b.position i ≠ b.position j := fun hp =>
    h (b.position_inj (b.lt_size_of_lt_length hi) (b.lt_size_of_lt_length hj) hp)
  refine ext ?_ rfl rfl
  simp only [set, write, cell, position, Array.size_set]
  exact Array.set_comm _ _ hne

/-- Of two results with different tags, the second one completes what it would have completed as
the first. -/
theorem completed_comm (h : r.tag ≠ q.tag) :
    ((b.complete r).1.complete q).2 = (b.complete q).2 := by
  by_cases hq : q.tag ∈ b.entries.map (·.tag)
  · obtain ⟨j, x, hj⟩ := exists_oldest hq
    rw [complete_of_oldest (hj.complete h.symm), complete_of_oldest hj]
    cases x.waiting <;> rfl
  · rw [complete_of_not_mem hq, complete_of_not_mem (by rwa [map_tag_complete])]

theorem complete_comm (h : r.tag ≠ q.tag) :
    ((b.complete r).1.complete q).1 = ((b.complete q).1.complete r).1 := by
  by_cases hr : r.tag ∈ b.entries.map (·.tag)
  · by_cases hq : q.tag ∈ b.entries.map (·.tag)
    · obtain ⟨i, e, hi⟩ := exists_oldest hr
      obtain ⟨j, x, hj⟩ := exists_oldest hq
      rw [complete_of_oldest (hj.complete h.symm), complete_of_oldest (hi.complete h),
        complete_of_oldest hi, complete_of_oldest hj]
      cases e.waiting with
      | false => rfl
      | true =>
        cases x.waiting with
        | false => rfl
        | true => exact set_comm hi.lt_length hj.lt_length (hi.ne hj h) _ _
    · rw [complete_of_not_mem hq, complete_of_not_mem (by rwa [map_tag_complete])]
  · rw [complete_of_not_mem hr, complete_of_not_mem (r := r) (by rwa [map_tag_complete])]

/-- What a result has completed, or has found complete, another with its tag finds complete. -/
theorem Queue.complete_again (r : Result) (x : Outcome) (l : List Entry) :
    (Queue.complete ⟨r.tag, x⟩ (Queue.complete r l).1).2 = false := by
  induction l with
  | nil => rfl
  | cons e l ih =>
    by_cases ht : e.tag = r.tag
    · cases hw : e.waiting <;> simp [Queue.complete, ht, hw]
    · simp [Queue.complete, ht, ih]

/-- A tag is not completed twice, even where a younger entry waits under it too. -/
theorem complete_again (b : ReorderBuffer) (r : Result) (x : Outcome) :
    (b.complete r).1.complete ⟨r.tag, x⟩ = ((b.complete r).1, false) := by
  have hdone : ((b.complete r).1.complete ⟨r.tag, x⟩).2 = false := by
    rw [(Prod.mk.inj ((b.complete r).1.complete_eq_queue ⟨r.tag, x⟩)).2,
      (Prod.mk.inj (b.complete_eq_queue r)).1]
    exact Queue.complete_again r x b.entries
  exact Prod.ext (complete_eq_self _ hdone) hdone

end ReorderBuffer

/-- A result goes to the operands of live entries that wait for its tag, each of which is counted
and takes its part of it, the flags or, with the other two inputs, the value; and to the oldest
entry in flight that carries the tag, if that one waits; everything else stays as it is. Another
result with the tag does nothing after it, and one with another tag does and reports the same before
and after it. -/
theorem broadcast_once_in_any_order (s : Station) (b : ReorderBuffer) (r : Result) :
    let x := broadcast r s b
    let waits (o : Operand) : Bool := o.waiting && o.tag == r.tag
    let after (o : Operand) (part : Int32) : Operand :=
      if waits o then ⟨false, r.tag, part⟩ else o
    x.resolved = ((s.slots.filter (·.occupied)).flatMap fun e =>
        [e.operands.a, e.operands.b, e.operands.f]).countP waits ∧
      x.station =
        { s with slots := s.slots.map fun e =>
            if e.occupied then
              { e with operands := ⟨after e.operands.a r.outcome.value,
                  after e.operands.b r.outcome.value, after e.operands.f r.outcome.flags⟩ }
            else e } ∧
      (∀ i e, b.Oldest r.tag i e →
        x.completed = e.waiting ∧
          x.buffer.entries = b.entries.set i
            (if e.waiting then ⟨false, e.opcode, e.tag, r.outcome⟩ else e) ∧
          x.buffer.head = b.head ∧ x.buffer.tail = b.tail ∧
          ∀ n, n ≠ b.position i → x.buffer.cells[n]? = b.cells[n]?) ∧
      (r.tag ∉ b.entries.map (·.tag) → x.completed = false ∧ x.buffer = b) ∧
      (∀ o, broadcast ⟨r.tag, o⟩ x.station x.buffer = ⟨x.station, x.buffer, 0, false⟩) ∧
      ∀ q : Result, r.tag ≠ q.tag →
        let y := broadcast q s b
        let xy := broadcast q x.station x.buffer
        let yx := broadcast r y.station y.buffer
        xy.station = yx.station ∧ xy.buffer = yx.buffer ∧
          (xy.resolved, xy.completed) = (y.resolved, y.completed) ∧
          (yx.resolved, yx.completed) = (x.resolved, x.completed) := by
  intro x waits after
  refine ⟨s.wake_count_eq r, ?_, fun i e hi => hi.fate, fun h => ?_, fun o => ?_,
    fun q h => ?_⟩
  · change (s.wake r).1 = _
    simp only [Station.fst_wake, Station.Entry.fst_wake, Operand.fst_resolve]
    rfl
  · have := ReorderBuffer.complete_of_not_mem h
    exact ⟨congrArg Prod.snd this, congrArg Prod.fst this⟩
  · change broadcast ⟨r.tag, o⟩ (s.wake r).1 (b.complete r).1 = _
    rw [broadcast, s.wake_again, b.complete_again]
    rfl
  · intro y xy yx
    exact ⟨s.wake_comm h, ReorderBuffer.complete_comm h,
      Prod.ext (s.count_wake_comm h) (ReorderBuffer.completed_comm h),
      Prod.ext (s.count_wake_comm h.symm) (ReorderBuffer.completed_comm h.symm)⟩

/-- Tag 5 is in flight twice. A result for it fills all three operands that wait for it, one of
them with its flags, but completes the older entry only, and the younger one goes without a second
result. -/
theorem broadcast_once_in_any_order_duplicate :
    let entry (n : ℕ) (a b f : Operand) :=
      Station.Entry.ofInstruction (Instruction.of (.alu .add) n a b f)
    let s : Station := ⟨⟨4, by decide, by decide⟩,
      [entry 7 (.waitingOn ⟨5⟩) (.waitingOn ⟨6⟩) (.waitingOn ⟨5⟩), default,
        entry 8 (.ready 1) (.waitingOn ⟨5⟩) (.ready 0)], 2⟩
    let b := [5, 5, 6].foldl (fun b n => (b.push ⟨0⟩ ⟨n⟩).1) (ReorderBuffer.empty 4)
    let x := broadcast ⟨⟨5⟩, ⟨1, 2⟩⟩ s b
    let y := broadcast ⟨⟨6⟩, ⟨3, 4⟩⟩ s b
    let xy := broadcast ⟨⟨6⟩, ⟨3, 4⟩⟩ x.station x.buffer
    let yx := broadcast ⟨⟨5⟩, ⟨1, 2⟩⟩ y.station y.buffer
    (x.resolved, x.completed) = (3, true) ∧
      x.station.slots.map (·.operands) =
        [⟨⟨false, ⟨5⟩, 1⟩, ⟨true, ⟨6⟩, 0⟩, ⟨false, ⟨5⟩, 2⟩⟩, default,
          ⟨⟨false, ⟨0⟩, 1⟩, ⟨false, ⟨5⟩, 1⟩, ⟨false, ⟨0⟩, 0⟩⟩] ∧
      x.buffer.entries.map (fun e => (e.tag, e.waiting)) =
        [(⟨5⟩, false), (⟨5⟩, true), (⟨6⟩, true)] ∧
      broadcast ⟨⟨5⟩, ⟨8, 9⟩⟩ x.station x.buffer = ⟨x.station, x.buffer, 0, false⟩ ∧
      xy.station = yx.station ∧ xy.buffer = yx.buffer ∧
      (xy.resolved, xy.completed) = (1, true) := by
  intro entry s b x y xy yx
  have holdest : b.Oldest ⟨5⟩ 0 ⟨true, ⟨0⟩, ⟨5⟩, ⟨0, 0⟩⟩ :=
    ⟨by decide +kernel, rfl, by decide +kernel⟩
  obtain ⟨hresolved, hwoken, hfound, -, hagain, hother⟩ :=
    broadcast_once_in_any_order s b ⟨⟨5⟩, ⟨1, 2⟩⟩
  obtain ⟨hcompleted, hentries, -⟩ := hfound 0 _ holdest
  obtain ⟨hstation, hbuffer, hreport, -⟩ := hother ⟨⟨6⟩, ⟨3, 4⟩⟩ (by decide)
  refine ⟨Prod.ext (hresolved.trans (by decide +kernel)) hcompleted, ?_, ?_, hagain _, hstation,
    hbuffer, hreport.trans (by decide +kernel)⟩
  · change (broadcast ⟨⟨5⟩, ⟨1, 2⟩⟩ s b).station.slots.map _ = _
    rw [hwoken]
    decide +kernel
  · change (broadcast ⟨⟨5⟩, ⟨1, 2⟩⟩ s b).buffer.entries.map _ = _
    rw [hentries]
    decide +kernel

end OutOfOrder
