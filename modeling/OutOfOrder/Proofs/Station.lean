import Mathlib
import OutOfOrder.Station

/-!
# The station as a bag of live entries

Which slot an instruction sits in carries no meaning, so a station is read as the entries in its
occupied slots, up to their order. What each operation does to them:

* `push_cases`: an instruction goes to the first free slot, if there is one;
* `live_push`: a station that is not full gets the instruction;
* `live_wake`: a result is offered to each of them;
* `issue_eq_some`, `issue_eq_none`: a ready one leaves, or none is ready;
* `Counted`: the count beside the slots is the number of live entries, and stays it.
-/

namespace OutOfOrder

/-! ## Filling and freeing one place of a list -/

theorem filter_set_perm {α : Type} {p : α → Bool} {l : List α} {n : Nat} {x : α}
    (h : n < l.length) (hn : p l[n] = false) (hx : p x = true) :
    ((l.set n x).filter p).Perm (x :: l.filter p) := by
  obtain ⟨l1, l2, hl, -, hs⟩ := @List.exists_of_set _ n x l h
  rw [hs, List.filter_append, List.filter_cons_of_pos hx]
  have : l.filter p = l1.filter p ++ l2.filter p := by
    conv => lhs; rw [hl]
    rw [List.filter_append, List.filter_cons_of_neg (by simp [hn])]
  rw [this]
  exact List.perm_middle

theorem filter_perm_set {α : Type} {p : α → Bool} {l : List α} {n : Nat} {x : α}
    (h : n < l.length) (hn : p l[n] = true) (hx : p x = false) :
    (l.filter p).Perm (l[n] :: (l.set n x).filter p) := by
  have := filter_set_perm (l := l.set n x) (n := n) (x := l[n]) (by simpa using h)
    (by simpa using hx) hn
  simpa using this

/-- A slot takes a result that it waits on, and leaves any other alone. -/
theorem Operand.resolve_cases (o : Operand) (t : Tag) (value : Int32) :
    (o.waiting = true ∧ o.tag = t ∧
        (o.resolve t value).1 = { o with waiting := false, value := value }) ∨
      ((o.waiting = true → o.tag ≠ t) ∧ (o.resolve t value).1 = o) := by
  unfold resolve waitsOn
  cases o.waiting with
  | false => exact .inr ⟨nofun, rfl⟩
  | true => by_cases ht : o.tag = t <;> simp [ht]

/-- What names an instruction on its way. -/
def Instruction.key (i : Instruction) : Tag × Opcode := (i.tag, i.opcode)

def Request.key (r : Request) : Tag × Opcode := (r.tag, r.opcode)

namespace Station

/-! ## Entries -/

namespace Entry

/-- The instruction that an entry stands for, with its operands as they are now. -/
def instruction (e : Entry) : Instruction := ⟨e.opcode, e.tag, e.operands⟩

@[simp] theorem occupied_wake (e : Entry) (r : Result) : (e.wake r).1.occupied = e.occupied := by
  unfold wake; split <;> rfl

@[simp] theorem tag_wake (e : Entry) (r : Result) : (e.wake r).1.tag = e.tag := by
  unfold wake; split <;> rfl

@[simp] theorem opcode_wake (e : Entry) (r : Result) : (e.wake r).1.opcode = e.opcode := by
  unfold wake; split <;> rfl

/-- A live entry offers the result to each of its slots. -/
theorem get_wake {e : Entry} (h : e.occupied = true) (r : Result) (k : Input) :
    (e.wake r).1.operands.get k = ((e.operands.get k).resolve r.tag (r.outcome.read k)).1 := by
  simp [wake, h, Operands.resolve]

theorem ready_iff {e : Entry} (h : e.occupied = true) :
    e.ready = true ↔ ∀ k, (e.operands.get k).waiting = false := by
  simp only [ready, h, Bool.true_and, Operands.ready, Operands.toList, List.all_cons, List.all_nil,
    Bool.and_true, Bool.and_eq_true, Bool.not_eq_true']
  exact ⟨fun ⟨ha, hb, hf⟩ k => by cases k <;> assumption, fun h => ⟨h .a, h .b, h .f⟩⟩

theorem occupied_of_ready {e : Entry} (h : e.ready = true) : e.occupied = true := by
  simp only [ready, Bool.and_eq_true] at h
  exact h.1

end Entry

/-! ## Live entries -/

theorem mem_live {s : Station} {e : Entry} :
    e ∈ s.live ↔ e ∈ s.slots ∧ e.occupied = true := List.mem_filter

theorem occupied_of_mem_live {s : Station} {e : Entry} (h : e ∈ s.live) : e.occupied = true :=
  (mem_live.1 h).2

@[simp] theorem live_empty (tags : TagSpace) (capacity : Nat) :
    (empty tags capacity).live = [] := by
  simp only [live, empty, List.filter_eq_nil_iff, List.mem_replicate]
  rintro e ⟨-, rfl⟩
  decide

/-- The count beside the slots is that of the live entries. -/
def Counted (s : Station) : Prop := s.occupied = s.live.length

theorem counted_empty (tags : TagSpace) (capacity : Nat) : (empty tags capacity).Counted := by
  rw [Counted, live_empty]
  rfl

/-! ## The lowest free slot -/

/-- The first of the slots that hold no instruction. -/
def LowestFree (s : Station) (n : Nat) : Prop :=
  s.slots[n]?.map (·.occupied) = some false ∧ ∀ m < n, s.slots[m]?.map (·.occupied) = some true

theorem LowestFree.free {s : Station} {n : Nat} (h : s.LowestFree n) :
    ∃ hn : n < s.slots.length, s.slots[n].occupied = false := by
  obtain ⟨e, he, hfree⟩ := Option.map_eq_some_iff.1 h.1
  obtain ⟨hn, rfl⟩ := List.getElem?_eq_some_iff.1 he
  exact ⟨hn, hfree⟩

/-- An instruction goes to the first free slot, if there is one. -/
theorem push_cases (s : Station) (i : Instruction) :
    ((∀ e ∈ s.slots, e.occupied = true) ∧ s.push i = (s, false)) ∨
      ∃ n, s.LowestFree n ∧ s.push i =
        ({ s with slots := s.slots.set n (.ofInstruction i), occupied := s.occupied + 1 },
          true) := by
  unfold push
  cases h : s.slots.findIdx? (!·.occupied) with
  | none =>
    have hall := List.findIdx?_eq_none_iff.1 h
    exact .inl ⟨fun e he => by simpa using hall e he, rfl⟩
  | some n =>
    obtain ⟨hn, hfree, hbefore⟩ := List.findIdx?_eq_some_iff_getElem.1 h
    refine .inr ⟨n, ⟨by simpa [hn] using hfree, fun m hm => ?_⟩, rfl⟩
    have hm' : m < s.slots.length := Nat.lt_trans hm hn
    simpa [hm'] using hbefore m hm

section
variable {s : Station} (hc : s.Counted)
include hc

theorem isEmpty_iff : s.isEmpty = true ↔ s.live = [] := by
  rw [isEmpty, beq_iff_eq, hc, List.length_eq_zero_iff]

theorem isFull_iff : s.isFull = true ↔ s.live.length = s.capacity := by
  rw [isFull, beq_iff_eq, hc]

theorem isFull_iff_forall : s.isFull = true ↔ ∀ e ∈ s.slots, e.occupied = true := by
  rw [isFull_iff hc, live, capacity, List.length_filter_eq_length_iff]

/-! ## Filling a slot -/

/-- A station that is not full has a free slot, and the instruction goes there. -/
theorem push_eq (hf : s.isFull = false) (i : Instruction) :
    ∃ (n : Nat) (hn : n < s.slots.length), s.slots[n].occupied = false ∧
      s.push i = ({ s with slots := s.slots.set n (.ofInstruction i), occupied := s.occupied + 1 },
        true) := by
  obtain ⟨hall, -⟩ | ⟨n, hn, he⟩ := s.push_cases i
  · rw [(isFull_iff_forall hc).2 hall] at hf
    cases hf
  · obtain ⟨hlt, hfree⟩ := hn.free
    exact ⟨n, hlt, hfree, he⟩

theorem live_push (hf : s.isFull = false) (i : Instruction) :
    (s.push i).1.live.Perm (.ofInstruction i :: s.live) := by
  obtain ⟨n, hn, hfree, he⟩ := push_eq hc hf i
  rw [he]
  exact filter_set_perm hn hfree rfl

theorem counted_push (hf : s.isFull = false) (i : Instruction) : (s.push i).1.Counted := by
  have hl := (live_push hc hf i).length_eq
  obtain ⟨n, hn, -, he⟩ := push_eq hc hf i
  rw [he] at hl ⊢
  rw [Counted, hl, List.length_cons, ← hc]

end

@[simp] theorem capacity_push (s : Station) (i : Instruction) :
    (s.push i).1.capacity = s.capacity := by
  unfold push; split <;> simp [capacity]

@[simp] theorem tags_push (s : Station) (i : Instruction) : (s.push i).1.tags = s.tags := by
  unfold push; split <;> rfl

/-! ## Results -/

/-- A free slot takes nothing. -/
theorem Entry.wake_free {e : Entry} (h : e.occupied = false) (r : Result) : e.wake r = (e, 0) := by
  rw [wake, if_neg (by rw [h]; nofun)]

theorem fst_wake (s : Station) (r : Result) :
    (s.wake r).1 = { s with slots := s.slots.map fun e => (e.wake r).1 } := by
  simp [wake]

theorem slots_wake (s : Station) (r : Result) :
    (s.wake r).1.slots = s.slots.map fun e => (e.wake r).1 := by
  rw [fst_wake]

@[simp] theorem live_wake (s : Station) (r : Result) :
    (s.wake r).1.live = s.live.map fun e => (e.wake r).1 := by
  simp only [live, wake, List.map_map, List.filter_map]
  congr 1
  exact List.filter_congr fun e _ => by simp

theorem counted_wake {s : Station} (hc : s.Counted) (r : Result) : (s.wake r).1.Counted := by
  rw [Counted, live_wake, List.length_map, ← hc]
  rfl

@[simp] theorem capacity_wake (s : Station) (r : Result) : (s.wake r).1.capacity = s.capacity := by
  simp [capacity, wake]

/-! ## The oldest ready entry -/

theorem ite_cons_subset {α : Type} (c : Prop) [Decidable c] (x first : α) (l : List α) :
    (if c then x else first) :: l ⊆ first :: x :: l := by
  split
  · exact List.subset_cons_self _ _
  · exact List.cons_subset_cons _ (List.subset_cons_self _ _)

/-- A scan that keeps one of two candidates ends with one of them all. -/
theorem scan_mem {α : Type} (better : α → α → Bool) :
    ∀ (l : List α) (first : α),
      l.foldl (fun best x => if better x best then x else best) first ∈ first :: l
  | [], first => List.mem_cons_self
  | x :: l, first => by
    rw [List.foldl_cons]
    exact ite_cons_subset _ x first l (scan_mem better l _)

/-- If those with `P` are better than all others, the scan ends with one of them. -/
theorem scan_of_better {α : Type} (better : α → α → Bool) (P : α → Prop) :
    ∀ (l : List α) (first : α), (∃ x ∈ first :: l, P x) →
      (∀ x ∈ first :: l, P x → ∀ y ∈ first :: l, ¬ P y →
        better x y = true ∧ better y x = false) →
      P (l.foldl (fun best x => if better x best then x else best) first)
  | [], first, hx, _ => by
    obtain ⟨x, hx, hp⟩ := hx
    rwa [List.mem_singleton.1 hx] at hp
  | y :: l, first, hx, hb => by
    rw [List.foldl_cons]
    have hsub := ite_cons_subset (better y first = true) y first l
    refine scan_of_better better P l _ ?_ fun a ha hpa b hb' hpb =>
      hb a (hsub ha) hpa b (hsub hb') hpb
    obtain ⟨x, hx, hp⟩ := hx
    by_cases hxl : x ∈ l
    · exact ⟨x, List.mem_cons_of_mem _ hxl, hp⟩
    · -- of the two candidates the one with `P` stays
      refine ⟨_, List.mem_cons_self, ?_⟩
      by_contra hn
      have hmem : y ∈ first :: y :: l := by simp
      split at hn
      · next hbetter =>
        obtain rfl | rfl | hx := by simpa using hx
        · rw [(hb x (by simp) hp y hmem hn).2] at hbetter
          cases hbetter
        · exact hn hp
        · exact hxl hx
      · next hbetter =>
        obtain rfl | rfl | hx := by simpa using hx
        · exact hn hp
        · exact hbetter (hb x hmem hp first (by simp) hn).1
        · exact hxl hx

/-- What the scan for the oldest ready entry finds: a ready entry, and its slot. -/
theorem oldestReady_mem {s : Station} {e : Entry} {n : Nat} (h : s.oldestReady = some (e, n)) :
    e.ready = true ∧ ∃ hn : n < s.slots.length, s.slots[n] = e := by
  unfold oldestReady at h
  split at h
  · cases h
  · rename_i first rest hl
    have hm := scan_mem (fun x y => s.tags.older x.1.tag y.1.tag) rest first
    rw [Option.some.inj h, ← hl, List.mem_filter, List.mem_zipIdx_iff_getElem?] at hm
    obtain ⟨hn, he⟩ := List.getElem?_eq_some_iff.1 hm.1
    exact ⟨hm.2, hn, he⟩

theorem mem_live_of_oldestReady {s : Station} {e : Entry} {n : Nat}
    (h : s.oldestReady = some (e, n)) : e ∈ s.live := by
  obtain ⟨hr, hn, he⟩ := oldestReady_mem h
  exact mem_live.2 ⟨he ▸ List.getElem_mem hn, Entry.occupied_of_ready hr⟩

theorem oldestReady_eq_none {s : Station} :
    s.oldestReady = none ↔ ∀ e ∈ s.live, e.ready = false := by
  have : s.oldestReady = none ↔ s.slots.zipIdx.filter (·.1.ready) = [] := by
    unfold oldestReady
    split <;> rename_i hl <;> simp only [hl, reduceCtorEq]
  rw [this, List.filter_eq_nil_iff]
  constructor
  · intro h e he
    obtain ⟨n, hn⟩ := List.mem_iff_getElem?.1 (mem_live.1 he).1
    simpa using h (e, n) (List.mem_zipIdx_iff_getElem?.2 hn)
  · rintro h ⟨e, n⟩ he hr
    have hm := List.mem_of_getElem? (List.mem_zipIdx_iff_getElem?.1 he)
    rw [h e (mem_live.2 ⟨hm, Entry.occupied_of_ready hr⟩)] at hr
    cases hr

/-- If the ready slots with `P` hold older tags than all other ready ones, the scan ends in one of
them. -/
theorem oldestReady_of_older {s : Station} {P : Nat → Entry → Prop} {e : Entry} {n : Nat}
    (h : s.oldestReady = some (e, n))
    (hx : ∃ m x, s.slots[m]? = some x ∧ x.ready = true ∧ P m x)
    (ho : ∀ m x, s.slots[m]? = some x → x.ready = true → P m x →
      ∀ k y, s.slots[k]? = some y → y.ready = true → ¬ P k y →
        s.tags.older x.tag y.tag = true ∧ s.tags.older y.tag x.tag = false) : P n e := by
  have hmem : ∀ {m : Nat} {x : Entry}, (x, m) ∈ s.slots.zipIdx.filter (·.1.ready) ↔
      s.slots[m]? = some x ∧ x.ready = true := by
    intro m x
    rw [List.mem_filter, List.mem_zipIdx_iff_getElem?]
  obtain ⟨m, x, hm, hr, hp⟩ := hx
  have hxm := hmem.2 ⟨hm, hr⟩
  unfold oldestReady at h
  split at h
  · cases h
  · rename_i first rest hl
    rw [hl] at hxm hmem
    have := scan_of_better (fun x y => s.tags.older x.1.tag y.1.tag) (fun y => P y.2 y.1) rest first
      ⟨_, hxm, hp⟩ fun a ha hpa b hb hpb =>
        ho a.2 a.1 (hmem.1 ha).1 (hmem.1 ha).2 hpa b.2 b.1 (hmem.1 hb).1 (hmem.1 hb).2 hpb
    rwa [Option.some.inj h] at this

/-- A ready entry that is older than every entry with another tag is the one that is found. -/
theorem oldestReady_tag {s : Station} {e x : Entry} {n : Nat} (h : s.oldestReady = some (e, n))
    (hx : x ∈ s.live) (hr : x.ready = true)
    (ho : ∀ y ∈ s.live, y.tag ≠ x.tag →
      s.tags.older x.tag y.tag = true ∧ s.tags.older y.tag x.tag = false) : e.tag = x.tag := by
  obtain ⟨m, hm⟩ := List.mem_iff_getElem?.1 (mem_live.1 hx).1
  refine oldestReady_of_older (P := fun _ y => y.tag = x.tag) h ⟨m, x, hm, hr, rfl⟩ ?_
  intro a z _ _ hz k y hk hy hne
  have hlive : y ∈ s.live :=
    mem_live.2 ⟨List.mem_of_getElem? hk, Entry.occupied_of_ready hy⟩
  rw [hz]
  exact ho y hlive hne

/-- Where age follows a ranking of the slots, the scan ends in the ready slot of least rank. -/
theorem oldestReady_least {s : Station} {rank : Nat → Nat} {e : Entry} {n : Nat}
    (h : s.oldestReady = some (e, n))
    (ho : ∀ m x, s.slots[m]? = some x → x.ready = true →
      ∀ k y, s.slots[k]? = some y → y.ready = true → rank m < rank k →
        s.tags.older x.tag y.tag = true ∧ s.tags.older y.tag x.tag = false)
    {m : Nat} {x : Entry} (hm : s.slots[m]? = some x) (hr : x.ready = true) : rank n ≤ rank m := by
  refine oldestReady_of_older (P := fun k _ => rank k ≤ rank m) h ⟨m, x, hm, hr, Nat.le_refl _⟩ ?_
  intro a y ha hy hle k z hk hz hgt
  exact ho a y ha hy k z hk hz (by omega)

/-! ## Issue -/

theorem issue_eq_none {s : Station} : s.issue = none ↔ ∀ e ∈ s.live, e.ready = false := by
  rw [issue, Option.map_eq_none_iff, oldestReady_eq_none]

theorem issue_eq_some_iff {s s' : Station} {r : Request} :
    s.issue = some (r, s') ↔ ∃ e n, s.oldestReady = some (e, n) ∧ r = e.request ∧
      s' = { s with
        slots := s.slots.set n { e with occupied := false }, occupied := s.occupied - 1 } := by
  simp only [issue, Option.map_eq_some_iff, Prod.exists, Prod.mk.injEq]
  exact exists₂_congr fun e n => and_congr_right fun _ => and_congr eq_comm eq_comm

/-- A ready entry is issued: it is the one shown before, and it alone leaves. -/
theorem issue_eq_some {s s' : Station} {r : Request} (h : s.issue = some (r, s')) :
    ∃ e n, s.oldestReady = some (e, n) ∧ s.peek = some e ∧ e.ready = true ∧ r = e.request ∧
      s.live.Perm (e :: s'.live) ∧ s'.capacity = s.capacity ∧ s'.tags = s.tags ∧
      (s.Counted → s'.Counted) := by
  obtain ⟨e, n, ho, rfl, rfl⟩ := issue_eq_some_iff.1 h
  obtain ⟨hr, hn, he⟩ := oldestReady_mem ho
  have hp : s.live.Perm
      (e :: (s.slots.set n { e with occupied := false }).filter (·.occupied)) := by
    have := filter_perm_set (p := (·.occupied)) (x := { e with occupied := false }) hn
      (by rw [he]; exact Entry.occupied_of_ready hr) rfl
    rwa [he] at this
  refine ⟨e, n, ho, by rw [peek, ho]; rfl, hr, rfl, hp, by simp [capacity], rfl, fun hc => ?_⟩
  have hl := hp.length_eq
  rw [List.length_cons, ← hc] at hl
  simp only [Counted, live]
  omega

/-- The entry that was found leaves the others behind. -/
theorem live_issue {s s' : Station} {e : Entry} {n : Nat} (ho : s.oldestReady = some (e, n))
    (hi : s.issue = some (e.request, s')) : s.live.Perm (e :: s'.live) := by
  obtain ⟨e', n', ho', -, -, -, hp, -⟩ := issue_eq_some hi
  obtain ⟨rfl, -⟩ := Prod.mk.inj (Option.some.inj (ho.symm.trans ho'))
  exact hp

end Station

end OutOfOrder
