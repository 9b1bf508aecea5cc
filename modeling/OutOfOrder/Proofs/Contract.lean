import Mathlib
import OutOfOrder.Program

/-!
# What a core may rely on in the instructions it is fed

* `Spaced gap tags`: two holders of a tag are at least `gap` places apart. With a gap of `window`
  no two instructions in flight share a tag, and every program that is read from records keeps to
  it (`Program.spaced_of_ofText`).
* `Supplied is`: a waiting operand names the tag of an instruction before its own.
* `Consecutive s tags`: one allocator handed the tags out in a row. Then age tells them apart while
  they are within a window of each other (`Consecutive.pairwise_older`).

All three pass to prefixes (`of_append`).
-/

namespace OutOfOrder

/-! ## Spacing -/

/-- Two holders of a tag are at least `gap` places apart. -/
def Spaced (gap : Nat) (tags : List Tag) : Prop :=
  ∀ j < tags.length, ∀ i < j, tags[i]? = tags[j]? → i + gap ≤ j

instance (gap : Nat) (tags : List Tag) : Decidable (Spaced gap tags) :=
  inferInstanceAs (Decidable (∀ j < tags.length, ∀ i < j, tags[i]? = tags[j]? → i + gap ≤ j))

namespace Spaced

variable {gap : Nat} {tags : List Tag}

theorem nil : Spaced gap [] := fun _ h => absurd h (Nat.not_lt_zero _)

theorem of_append {more : List Tag} (h : Spaced gap (tags ++ more)) : Spaced gap tags := by
  intro j hj i hij he
  refine h j (by rw [List.length_append]; omega) i hij ?_
  rwa [List.getElem?_append_left (by omega), List.getElem?_append_left hj]

theorem append_singleton (h : Spaced gap tags) {t : Tag}
    (ht : ∀ i, tags[i]? = some t → i + gap ≤ tags.length) : Spaced gap (tags ++ [t]) := by
  intro j hj i hij he
  rw [List.length_append, List.length_singleton] at hj
  rw [List.getElem?_append_left (show i < tags.length by omega)] at he
  by_cases hjl : j = tags.length
  · subst hjl
    rw [List.getElem?_concat_length] at he
    exact ht i he
  · rw [List.getElem?_append_left (by omega)] at he
    exact h j (by omega) i hij he

/-- Among the last `gap` tags none comes twice. -/
theorem nodup_drop (h : Spaced gap tags) {n : Nat} (hn : tags.length ≤ n + gap) :
    (tags.drop n).Nodup := by
  rw [List.nodup_iff_getElem?_ne_getElem?]
  intro i j hij hj he
  rw [List.length_drop] at hj
  rw [List.getElem?_drop, List.getElem?_drop] at he
  have := h (n + j) (by omega) (n + i) (by omega) he
  omega

end Spaced

/-! ## Supply -/

/-- A waiting operand names the tag of an earlier instruction. -/
def Supplied (is : List Instruction) : Prop :=
  ∀ (n : Nat) (h : n < is.length), ∀ slot ∈ is[n].operands.toList, slot.waiting = true →
    ∃ i ∈ is.take n, i.tag = slot.tag

instance (is : List Instruction) : Decidable (Supplied is) :=
  inferInstanceAs (Decidable (∀ (n : Nat) (h : n < is.length), ∀ slot ∈ is[n].operands.toList,
    slot.waiting = true → ∃ i ∈ is.take n, i.tag = slot.tag))

theorem Operands.get_mem_toList {α : Type} (o : Operands α) (k : Input) : o.get k ∈ o.toList := by
  cases k <;> simp [Operands.get, Operands.toList]

namespace Supplied

variable {is : List Instruction}

theorem of_append {more : List Instruction} (h : Supplied (is ++ more)) : Supplied is := by
  intro n hn slot hs hw
  have := h n (by rw [List.length_append]; omega) slot
    (by rwa [List.getElem_append_left hn]) hw
  rwa [List.take_append_of_le_length (by omega)] at this

/-- The producers of the last instruction stand before it. -/
theorem last {i : Instruction} (h : Supplied (is ++ [i])) {k : Input}
    (hw : (i.operands.get k).waiting = true) : ∃ j ∈ is, j.tag = (i.operands.get k).tag := by
  have := h is.length (by simp) (i.operands.get k)
    (by simpa using Operands.get_mem_toList i.operands k) hw
  rwa [List.take_append_of_le_length (Nat.le_refl _), List.take_length] at this

end Supplied

/-! ## Tags handed out in a row -/

namespace TagSpace

variable (s : TagSpace)

theorem next_tag (n : Nat) : s.next (s.tag n) = s.tag (n + 1) := by
  rw [next, ← Tag.index_inj, index_tag, index_tag, index_tag, Nat.mod_add_mod]

theorem size_dvd : s.size ∣ UInt16.size := by
  rw [size, Nat.one_shiftLeft]
  exact Nat.pow_dvd_pow 2 s.bits_le

theorem distance_tag {a b d : Nat} (h : (a + d) % s.size = b % s.size) (hd : d < s.size) :
    s.distance (s.tag a) (s.tag b) = d := by
  have ha := Nat.mod_lt a s.size_pos
  have hle := s.size_le
  -- a lap of all words is a number of whole laps of the space
  have hmod : b % s.size + UInt16.size - a % s.size + a ≡ d + a [MOD s.size] :=
    calc b % s.size + UInt16.size - a % s.size + a
        ≡ b % s.size + UInt16.size - a % s.size + a % s.size [MOD s.size] :=
          (Nat.mod_modEq a _).symm.add_left _
      _ = b % s.size + UInt16.size := Nat.sub_add_cancel (by omega)
      _ ≡ b + 0 [MOD s.size] :=
          (Nat.mod_modEq b _).add ((Nat.modEq_zero_iff_dvd).2 s.size_dvd)
      _ = b := rfl
      _ ≡ d + a [MOD s.size] := by rw [Nat.add_comm d a]; exact h.symm
  rw [distance, index_tag, index_tag]
  exact Eq.trans (hmod.add_right_cancel' a) (Nat.mod_eq_of_lt hd)

/-- Within a window, of two tags the one handed out first is the older one. -/
theorem older_tag {a b : Nat} (h : a < b) (hw : b < a + s.window) :
    s.older (s.tag a) (s.tag b) = true ∧ s.older (s.tag b) (s.tag a) = false := by
  have hs := s.size_eq
  have h1 : s.distance (s.tag a) (s.tag b) = b - a :=
    s.distance_tag (by rw [Nat.add_sub_cancel' h.le]) (by omega)
  have h2 : s.distance (s.tag b) (s.tag a) = s.size - (b - a) :=
    s.distance_tag (by rw [show b + (s.size - (b - a)) = a + s.size by omega, Nat.add_mod_right])
      (by omega)
  simp only [older, h1, h2, Bool.and_eq_true, Bool.and_eq_false_iff, decide_eq_true_eq,
    decide_eq_false_iff_not]
  omega

end TagSpace

namespace TagAllocator

theorem allocate_startingAt (s : TagSpace) (n : Nat) :
    (startingAt s n).allocate = (s.tag n, startingAt s (n + 1)) := by
  simp only [allocate, startingAt, s.next_tag]

theorem allocateMany_eq (s : TagSpace) (m n : Nat) :
    ((startingAt s m).allocateMany n).1 = (List.range' m n).map s.tag := by
  induction n generalizing m with
  | zero => rfl
  | succ n ih =>
    rw [allocateMany, allocate_startingAt, List.range'_succ, List.map_cons, ← ih]

end TagAllocator

/-- One allocator handed the tags out in a row. -/
def Consecutive (s : TagSpace) (tags : List Tag) : Prop :=
  ∃ first, tags = ((TagAllocator.startingAt s first).allocateMany tags.length).1

namespace Consecutive

variable {s : TagSpace} {tags : List Tag}

theorem of_append {more : List Tag} (h : Consecutive s (tags ++ more)) : Consecutive s tags := by
  obtain ⟨first, h⟩ := h
  refine ⟨first, ?_⟩
  have := congrArg (List.take tags.length) h
  rwa [List.take_left, TagAllocator.allocateMany_eq, ← List.map_take,
    List.take_range'_of_length_ge (by simp), ← TagAllocator.allocateMany_eq] at this

/-- Tags handed out in a row come back after a lap, which is more than a window. -/
theorem spaced (h : Consecutive s tags) : Spaced s.window tags := by
  obtain ⟨first, h⟩ := h
  rw [TagAllocator.allocateMany_eq] at h
  intro j hj i hij he
  have hat : ∀ k < tags.length, tags[k]? = some (s.tag (first + k)) := by
    intro k hk
    rw [h, List.getElem?_map, List.getElem?_range' (by simpa using hk)]
    simp
  rw [hat i (by omega), hat j hj, Option.some.injEq] at he
  by_contra hlt
  obtain ⟨h1, h2⟩ := s.older_tag (a := first + i) (b := first + j) (by omega) (by omega)
  rw [he] at h1 h2
  rw [h1] at h2
  cases h2

/-- A last stretch within a window is in order of age. -/
theorem pairwise_older (h : Consecutive s tags) {k : Nat} (hk : tags.length ≤ k + s.window) :
    (tags.drop k).Pairwise fun a b => s.older a b = true ∧ s.older b a = false := by
  obtain ⟨first, h⟩ := h
  rw [h, TagAllocator.allocateMany_eq, ← List.map_drop, List.drop_range', List.pairwise_map]
  refine List.Pairwise.imp_of_mem (fun {a b} ha hb hab => ?_) List.pairwise_lt_range'
  rw [List.mem_range'_1] at ha hb
  exact s.older_tag hab (by omega)

end Consecutive

end OutOfOrder
