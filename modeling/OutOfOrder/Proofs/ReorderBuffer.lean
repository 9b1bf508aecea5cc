import Mathlib
import OutOfOrder.ReorderBuffer.View

/-!
# The reorder buffer while its tags are distinct

A result goes to the oldest entry with its tag. As long as no two entries share a tag there is no
choice, and completion is a map over the entries (`entries_complete_of_nodup`). `waiting` are the
entries that still wait, oldest first: a push adds one at the end, a result takes its own away, and
retirement leaves them alone. `latest` finds the last holder of a tag in a list of
entries, where the same tag may come back.
-/

namespace OutOfOrder

/-- Changing the first place with a key is a map where keys are distinct. -/
theorem modify_findIdx?_eq_map {α β : Type} [DecidableEq β] (key : α → β) (f : α → α) (t : β) :
    ∀ l : List α, (l.map key).Nodup →
      (match l.findIdx? fun x => key x == t with
        | none => l
        | some i => l.modify i f) = l.map fun x => if key x = t then f x else x
  | [], _ => rfl
  | x :: l, h => by
    rw [List.map_cons, List.nodup_cons] at h
    have ih := modify_findIdx?_eq_map key f t l h.2
    rw [List.findIdx?_cons, List.map_cons]
    by_cases hx : key x = t
    · have hl : (l.map fun x => if key x = t then f x else x) = l := by
        refine (List.map_congr_left fun y hy => if_neg fun hk => ?_).trans (List.map_id l)
        exact h.1 (List.mem_map.2 ⟨y, hy, hk.trans hx.symm⟩)
      simp [hx, hl]
    · rw [← ih, if_neg hx, if_neg (by simpa using hx)]
      cases l.findIdx? fun x => key x == t <;> simp

/-- Changing a place keeps every image that the change keeps. -/
theorem map_modify_of_forall {α β : Type} {f : α → β} {g : α → α} (h : ∀ x, f (g x) = f x) :
    ∀ (l : List α) (i : Nat), (l.modify i g).map f = l.map f
  | [], _ => by rw [List.modify_nil]
  | x :: l, 0 => by rw [List.modify_zero_cons, List.map_cons, List.map_cons, h]
  | x :: l, i + 1 => by
    rw [List.modify_succ_cons, List.map_cons, List.map_cons, map_modify_of_forall h l i]

namespace ReorderBuffer

theorem ext {b b' : ReorderBuffer} (hc : b.cells = b'.cells) (hh : b.head = b'.head)
    (ht : b.tail = b'.tail) : b = b' := by
  cases b
  cases b'
  cases hc
  cases hh
  cases ht
  rfl

/-- What an entry has of its instruction. -/
def Entry.key (e : Entry) : Tag × Opcode := (e.tag, e.opcode)

/-! ## Completion -/

@[simp] theorem Entry.waiting_complete (e : Entry) (o : Outcome) :
    (e.complete o).waiting = false := rfl

@[simp] theorem Entry.tag_complete (e : Entry) (o : Outcome) : (e.complete o).tag = e.tag := rfl

theorem entries_complete_of_nodup {b : ReorderBuffer} (hd : (b.entries.map (·.tag)).Nodup)
    (r : Result) :
    (b.complete r).1.entries =
      b.entries.map fun e =>
        if e.tag = r.tag ∧ e.waiting = true then e.complete r.outcome else e := by
  have hmap := modify_findIdx?_eq_map (·.tag)
    (fun e : Entry => if e.waiting then e.complete r.outcome else e) r.tag b.entries hd
  simp only [ite_and]
  refine (entries_complete b r).trans (Eq.trans ?_ hmap)
  cases b.entries.findIdx? (·.tag == r.tag) <;> rfl

/-- Completion finds its entry exactly where one waits for the result. -/
theorem complete_eq_true_iff {b : ReorderBuffer} (hd : (b.entries.map (·.tag)).Nodup)
    (r : Result) : (b.complete r).2 = true ↔ ∃ e ∈ b.entries, e.tag = r.tag ∧ e.waiting = true := by
  rw [complete_eq]
  cases h : b.entries.findIdx? (·.tag == r.tag) with
  | none =>
    have := List.findIdx?_eq_none_iff.1 h
    simp only [Bool.false_eq_true, false_iff]
    rintro ⟨e, he, ht, -⟩
    simpa [ht] using this e he
  | some i =>
    obtain ⟨hi, ht, -⟩ := List.findIdx?_eq_some_iff_getElem.1 h
    rw [beq_iff_eq] at ht
    have he := b.entry_eq_getElem hi
    have huniq : ∀ e ∈ b.entries, e.tag = r.tag → e = b.entries[i] := fun e hm hte =>
      List.inj_on_of_nodup_map hd hm (List.getElem_mem hi) (hte.trans ht.symm)
    by_cases hw : (b.entry i).waiting
    · simp only [hw, if_true, true_iff]
      exact ⟨_, List.getElem_mem hi, ht, he ▸ hw⟩
    · simp only [hw, Bool.false_eq_true, if_false, false_iff]
      rintro ⟨e, hm, hte, hwe⟩
      rw [huniq e hm hte, ← he] at hwe
      exact hw hwe

theorem map_key_complete (b : ReorderBuffer) (r : Result) :
    (b.complete r).1.entries.map (·.key) = b.entries.map (·.key) := by
  rw [entries_complete]
  split
  · rfl
  · exact map_modify_of_forall (fun e => by split <;> rfl) _ _

theorem map_tag_of_map_key {l m : List Entry} (h : l.map (·.key) = m.map (·.key)) :
    l.map (·.tag) = m.map (·.tag) := by
  have := congrArg (List.map Prod.fst) h
  rwa [List.map_map, List.map_map] at this

theorem map_tag_complete (b : ReorderBuffer) (r : Result) :
    (b.complete r).1.entries.map (·.tag) = b.entries.map (·.tag) :=
  map_tag_of_map_key (b.map_key_complete r)

theorem length_complete (b : ReorderBuffer) (r : Result) :
    (b.complete r).1.entries.length = b.entries.length := by
  simpa using congrArg List.length (b.map_key_complete r)

@[simp] theorem capacity_complete (b : ReorderBuffer) (r : Result) :
    (b.complete r).1.capacity = b.capacity := by
  unfold complete
  split
  · rfl
  · split <;> simp [capacity, write]

/-! ## Entering and leaving -/

@[simp] theorem capacity_push (b : ReorderBuffer) (opcode : Opcode) (tag : Tag) :
    (b.push opcode tag).1.capacity = b.capacity := by
  unfold push; split <;> simp [capacity]

theorem entries_empty (capacity : Nat) : (empty capacity).entries = [] :=
  List.length_eq_zero_iff.1 (by rw [length_entries]; exact (isEmpty_iff _).1 (by rfl))

theorem length_entries_lt (b : ReorderBuffer) : b.entries.length < b.capacity := by
  rw [length_entries]
  exact b.length_lt

theorem isFull_eq_false_iff (b : ReorderBuffer) :
    b.isFull = false ↔ b.entries.length + 1 < b.capacity := by
  have h := b.length_entries_lt
  rw [← Bool.not_eq_true, isFull_iff, ← length_entries, capacity]
  rw [capacity] at h
  omega

theorem isEmpty_eq_true_iff (b : ReorderBuffer) : b.isEmpty = true ↔ b.entries = [] := by
  rw [isEmpty_iff, ← length_entries, List.length_eq_zero_iff]

theorem retire_eq_some {b b' : ReorderBuffer} {e : Entry} (h : b.retire = some (e, b')) :
    b.entries = e :: b'.entries ∧ e.waiting = false ∧ b'.capacity = b.capacity := by
  have he := b.retire_eq
  have hc : b'.capacity = b.capacity := by
    unfold retire at h
    split at h
    · cases h
    · split at h <;> cases h
      rfl
  rw [h] at he
  split at he
  · rename_i hl
    split at he
    · cases he
    · rename_i hw
      obtain ⟨rfl, rfl⟩ := Prod.mk.inj (Option.some.inj he)
      exact ⟨hl, by simpa using hw, hc⟩
  · cases he

theorem retire_eq_none {b : ReorderBuffer} :
    b.retire = none ↔ ∀ e, b.entries.head? = some e → e.waiting = true := by
  have he := b.retire_eq
  rw [← Option.map_eq_none_iff (f := fun p => (p.1, p.2.entries)), he]
  split <;> rename_i hl <;> simp [hl]

/-! ## Waiting entries -/

/-- The entries that wait for their results, oldest first. -/
def waiting (b : ReorderBuffer) : List Entry := b.entries.filter (·.waiting)

def waitingTags (b : ReorderBuffer) : List Tag := b.waiting.map (·.tag)

theorem mem_waiting {b : ReorderBuffer} {e : Entry} :
    e ∈ b.waiting ↔ e ∈ b.entries ∧ e.waiting = true := List.mem_filter

theorem mem_waitingTags {b : ReorderBuffer} {t : Tag} :
    t ∈ b.waitingTags ↔ ∃ e ∈ b.entries, e.waiting = true ∧ e.tag = t := by
  simp [waitingTags, mem_waiting, and_assoc]

theorem waitingTags_sublist (b : ReorderBuffer) :
    b.waitingTags.Sublist (b.entries.map (·.tag)) := List.filter_sublist.map _

theorem waiting_complete {b : ReorderBuffer} (hd : (b.entries.map (·.tag)).Nodup)
    (r : Result) : (b.complete r).1.waiting = b.waiting.filter (·.tag ≠ r.tag) := by
  rw [waiting, entries_complete_of_nodup hd, waiting]
  induction b.entries with
  | nil => rfl
  | cons e l ih =>
    by_cases hw : e.waiting = true <;> by_cases ht : e.tag = r.tag <;>
      simp [hw, ht, ih]

theorem waiting_push {b : ReorderBuffer} (hf : b.isFull = false) (opcode : Opcode) (tag : Tag) :
    (b.push opcode tag).1.waiting = b.waiting ++ [.pending opcode tag] := by
  rw [waiting, entries_push _ _ _ hf, List.filter_append]
  rfl

theorem waiting_retire {b b' : ReorderBuffer} {e : Entry} (h : b.retire = some (e, b')) :
    b'.waiting = b.waiting := by
  obtain ⟨he, hw, -⟩ := retire_eq_some h
  rw [waiting, waiting, he, List.filter_cons_of_neg (by simp [hw])]

theorem waitingTags_complete {b : ReorderBuffer} (hd : (b.entries.map (·.tag)).Nodup)
    (r : Result) : (b.complete r).1.waitingTags = b.waitingTags.filter (· ≠ r.tag) := by
  rw [waitingTags, waiting_complete hd, waitingTags, List.filter_map]
  rfl

theorem waitingTags_push {b : ReorderBuffer} (hf : b.isFull = false) (opcode : Opcode) (tag : Tag) :
    (b.push opcode tag).1.waitingTags = b.waitingTags ++ [tag] := by
  rw [waitingTags, waiting_push hf, List.map_append]
  rfl

theorem waitingTags_retire {b b' : ReorderBuffer} {e : Entry} (h : b.retire = some (e, b')) :
    b'.waitingTags = b.waitingTags :=
  congrArg (List.map fun e : Entry => e.tag) (waiting_retire h)

/-! ## Forwarding -/

theorem lookup_of_mem {b : ReorderBuffer} (hd : (b.entries.map (·.tag)).Nodup) {e : Entry}
    (he : e ∈ b.entries) : b.lookup e.tag = if e.waiting then none else some e.outcome := by
  have huniq : ∀ x ∈ b.entries, x.tag = e.tag → x = e := fun x hx ht =>
    List.inj_on_of_nodup_map hd hx he ht
  unfold lookup
  cases hf : b.entries.find? fun x => x.tag == e.tag && !x.waiting with
  | none =>
    have := List.find?_eq_none.1 hf e he
    simp only [BEq.rfl, Bool.true_and, Bool.not_eq_true', Bool.not_eq_false] at this
    rw [this]
    rfl
  | some x =>
    have hx := List.find?_some hf
    simp only [Bool.and_eq_true, beq_iff_eq, Bool.not_eq_true'] at hx
    obtain rfl := huniq x (List.mem_of_find?_eq_some hf) hx.1
    rw [hx.2]
    rfl

theorem lookup_of_not_mem {b : ReorderBuffer} {t : Tag} (h : t ∉ b.entries.map (·.tag)) :
    b.lookup t = none := by
  rw [lookup, Option.map_eq_none_iff, List.find?_eq_none]
  intro e he hc
  simp only [Bool.and_eq_true, beq_iff_eq] at hc
  exact h (List.mem_map.2 ⟨e, he, hc.1⟩)

/-! ## The latest holder of a tag -/

/-- The last of the entries that carries the tag. -/
def latest (done : List Entry) (t : Tag) : Option Entry := done.reverse.find? (·.tag == t)

section
variable {done more : List Entry} {e : Entry} {t : Tag}

theorem latest_append : latest (done ++ more) t = (latest more t).or (latest done t) := by
  rw [latest, List.reverse_append, List.find?_append]
  rfl

theorem latest_append_singleton :
    latest (done ++ [e]) t = if e.tag = t then some e else latest done t := by
  rw [latest_append]
  by_cases h : e.tag = t <;> simp [latest, h]

theorem latest_eq_none : latest done t = none ↔ t ∉ done.map (·.tag) := by
  simp [latest]

theorem latest_append_of_not_mem (h : t ∉ more.map (·.tag)) :
    latest (done ++ more) t = latest done t := by
  rw [latest_append, latest_eq_none.2 h, Option.none_or]

theorem latest_append_of_mem (hd : (more.map (·.tag)).Nodup) (h : e ∈ more) :
    latest (done ++ more) e.tag = some e := by
  have : latest more e.tag = some e := by
    cases hl : latest more e.tag with
    | none => exact absurd (List.mem_map_of_mem h) (latest_eq_none.1 hl)
    | some e' =>
      have hm : e' ∈ more := List.mem_reverse.1 (List.mem_of_find?_eq_some hl)
      have ht : e'.tag = e.tag := by simpa using List.find?_some hl
      rw [List.inj_on_of_nodup_map hd hm h ht]
  rw [latest_append, this, Option.some_or]

theorem tag_of_latest (h : latest done t = some e) : e.tag = t := by
  simpa using List.find?_some h

end

end ReorderBuffer

end OutOfOrder
