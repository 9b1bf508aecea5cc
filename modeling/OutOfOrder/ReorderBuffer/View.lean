import OutOfOrder.ReorderBuffer

/-!
# The reorder buffer as a list

What each operation of the ring does to `entries`, the list of what it holds, oldest first:

* `entries_push`: a buffer that is not full gets the new entry at the end;
* `find_eq`: the walk over the cells ends where the first entry with the tag stands;
* `entries_complete`: the oldest entry with the tag of a result takes its outcome, if it waits;
* `retire_eq`: the first entry leaves if it does not wait;
* `isEmpty_iff`, `isFull_iff`: no entry is there, or one fewer than there are cells.
-/

namespace OutOfOrder.ReorderBuffer

/-! ## Marks and cells -/

theorem length_eq (b : ReorderBuffer) :
    b.length = if b.tail ≤ b.head then b.head - b.tail else b.head + b.cells.size - b.tail :=
  b.between_eq b.tail_lt b.head_lt

theorem length_lt (b : ReorderBuffer) : b.length < b.cells.size := Nat.mod_lt _ b.size_pos

theorem position_eq (b : ReorderBuffer) {i : Nat} (h : i < b.cells.size) :
    b.position i =
      if b.tail + i < b.cells.size then b.tail + i else b.tail + i - b.cells.size := by
  have t := b.tail_lt
  unfold position
  split
  · exact Nat.mod_eq_of_lt (by omega)
  · rw [Nat.mod_eq_sub_mod (by omega), Nat.mod_eq_of_lt (by omega)]

/-! ## Length -/

theorem isFull_iff (b : ReorderBuffer) : b.isFull = true ↔ b.length + 1 = b.cells.size := by
  have h := b.head_lt
  have t := b.tail_lt
  have two := b.two_le
  rw [isFull, beq_iff_eq, b.advance_eq h, b.length_eq]
  split <;> split <;> omega

theorem isEmpty_iff (b : ReorderBuffer) : b.isEmpty = true ↔ b.length = 0 := by
  have h := b.head_lt
  have t := b.tail_lt
  rw [isEmpty, beq_iff_eq, b.length_eq]
  split <;> omega

/-! ## Entries -/

@[simp] theorem length_entries (b : ReorderBuffer) : b.entries.length = b.length := by
  simp [entries]

@[simp] theorem getElem?_entries (b : ReorderBuffer) (i : Nat) :
    b.entries[i]? = if i < b.length then some (b.entry i) else none := by
  simp only [entries, List.getElem?_map]
  grind

theorem position_inj (b : ReorderBuffer) {i j : Nat} (hi : i < b.cells.size)
    (hj : j < b.cells.size) (h : b.position i = b.position j) : i = j := by
  have t := b.tail_lt
  rw [b.position_eq hi, b.position_eq hj] at h
  split at h <;> split at h <;> omega

theorem position_length (b : ReorderBuffer) : b.position b.length = b.head := by
  have h := b.head_lt
  have t := b.tail_lt
  rw [b.position_eq b.length_lt, b.length_eq]
  split <;> split <;> omega

theorem lt_size_of_lt_length (b : ReorderBuffer) {i : Nat} (h : i < b.length) : i < b.cells.size :=
  Nat.lt_trans h b.length_lt

theorem entry_eq_getElem (b : ReorderBuffer) {i : Nat} (h : i < b.entries.length) :
    b.entry i = b.entries[i] := by
  simp [entries]

/-! ## The walk over the cells -/

/-- The cell that the entry with `i` older ones before it is in. -/
def cell (b : ReorderBuffer) (i : Nat) : Fin b.cells.size := ⟨b.position i, b.position_lt i⟩

theorem advance_position (b : ReorderBuffer) (i : Nat) :
    b.advance (b.position i) = b.position (i + 1) := by
  rw [advance, position, position, Nat.mod_add_mod, Nat.add_assoc]

/-- From the entry with `i` older ones on, the walk goes through the entries in order. -/
theorem findFrom_cell (b : ReorderBuffer) (t : Tag) {i : Nat} (hi : i ≤ b.length) :
    b.findFrom t (b.cell i) =
      ((b.entries.drop i).findIdx? (·.tag == t)).map fun n => b.cell (i + n) := by
  induction hn : b.length - i generalizing i with
  | zero =>
    obtain rfl : i = b.length := by omega
    have hhead : (b.cell b.length : Nat) = b.head := b.position_length
    rw [findFrom, dif_pos hhead, List.drop_eq_nil_of_le (by simp)]
    rfl
  | succ n ih =>
    have hlt : i < b.entries.length := by rw [length_entries]; omega
    have hhead : (b.cell i : Nat) ≠ b.head := by
      intro h
      have := b.position_inj (b.lt_size_of_lt_length (by omega)) b.length_lt
        (h.trans b.position_length.symm)
      omega
    have hnext : (⟨b.advance (b.cell i), b.advance_lt _⟩ : Fin b.cells.size) = b.cell (i + 1) :=
      Fin.ext (b.advance_position i)
    have hentry : b.cells[b.cell i] = b.entries[i] := b.entry_eq_getElem hlt
    rw [findFrom, dif_neg hhead, hnext, ih (by omega) (by omega), hentry,
      List.drop_eq_getElem_cons hlt, List.findIdx?_cons]
    split
    · rfl
    · rw [Option.map_map]
      refine congrArg (Option.map · _) (funext fun n => ?_)
      rw [Function.comp_apply, Nat.add_right_comm, Nat.add_assoc]

/-- The walk ends in the cell of the first entry with the tag. -/
theorem find_eq (b : ReorderBuffer) (t : Tag) :
    b.find t = (b.entries.findIdx? (·.tag == t)).map b.cell := by
  have htail : (⟨b.tail, b.tail_lt⟩ : Fin b.cells.size) = b.cell 0 :=
    Fin.ext (Nat.mod_eq_of_lt b.tail_lt).symm
  rw [find, htail, b.findFrom_cell t (Nat.zero_le _), List.drop_zero]
  simp only [Nat.zero_add]

/-- Another entry in the place of the one with `i` older ones before it. -/
def set (b : ReorderBuffer) (i : Nat) (e : Entry) : ReorderBuffer := b.write (b.cell i) e

/-- A result is for the first entry with its tag. -/
theorem complete_eq (b : ReorderBuffer) (r : Result) :
    b.complete r =
      match b.entries.findIdx? (·.tag == r.tag) with
      | none => (b, false)
      | some i =>
        if (b.entry i).waiting then (b.set i ((b.entry i).complete r.outcome), true)
        else (b, false) := by
  rw [complete, find_eq]
  cases b.entries.findIdx? (·.tag == r.tag) <;> rfl

/-! ## Operations -/

theorem length_push (b : ReorderBuffer) (opcode : Opcode) (tag : Tag) (h : b.isFull = false) :
    (b.push opcode tag).1.length = b.length + 1 := by
  have hh := b.head_lt
  have t := b.tail_lt
  have full := b.isFull_iff
  simp only [h, Bool.false_eq_true, false_iff] at full
  rw [length_eq, b.length_eq] at *
  simp only [push, h, Bool.false_eq_true, if_false, Array.size_set, b.advance_eq hh]
  grind

theorem entries_push (b : ReorderBuffer) (opcode : Opcode) (tag : Tag) (h : b.isFull = false) :
    (b.push opcode tag).1.entries = b.entries ++ [.pending opcode tag] := by
  have hlen := b.length_push opcode tag h
  apply List.ext_getElem?
  intro i
  rw [getElem?_entries, hlen, List.getElem?_append, length_entries, getElem?_entries]
  have entry_eq : (b.push opcode tag).1.entry i =
      if b.position i = b.head then .pending opcode tag else b.entry i := by
    simp only [push, h, Bool.false_eq_true, if_false, entry, position, Array.size_set,
      Array.getElem_set]
    exact ite_congr (propext eq_comm) (fun _ => rfl) fun _ => rfl
  rcases Nat.lt_trichotomy i b.length with hi | rfl | hi
  · have : b.position i ≠ b.head := by
      rw [← b.position_length]
      intro e
      have := b.position_inj (b.lt_size_of_lt_length hi) b.length_lt e
      omega
    simp [hi, entry_eq, this, Nat.lt_succ_of_lt hi]
  · simp [entry_eq, b.position_length]
  · simp [show ¬ i < b.length + 1 by omega, show ¬ i < b.length by omega,
      show i - b.length ≠ 0 by omega]

theorem entries_set (b : ReorderBuffer) {i : Nat} (hi : i < b.length) (e : Entry) :
    (b.set i e).entries = b.entries.set i e := by
  apply List.ext_getElem?
  intro j
  have hlen : (b.set i e).length = b.length := by simp [length, set, write]
  rw [getElem?_entries, hlen, List.getElem?_set, getElem?_entries, length_entries]
  by_cases hj : j < b.length
  · have entry_eq : (b.set i e).entry j = if i = j then e else b.entry j := by
      have := b.position_inj (b.lt_size_of_lt_length hi) (b.lt_size_of_lt_length hj)
      simp only [set, write, cell, entry, position, Array.size_set, Array.getElem_set] at this ⊢
      exact ite_congr (propext ⟨this, fun h => h ▸ rfl⟩) (fun _ => rfl) fun _ => rfl
    simp only [hj, if_true, entry_eq]
    grind
  · grind

theorem oldest?_eq (b : ReorderBuffer) : b.oldest? = b.entries.head? := by
  have h := b.isEmpty_iff
  rw [oldest?, List.head?_eq_getElem?, getElem?_entries]
  grind

/-- Taking the oldest entry out. -/
theorem entries_advance (b : ReorderBuffer) (h : b.isEmpty = false) :
    b.entries = b.entry 0 ::
      { b with tail := b.advance b.tail, tail_lt := b.advance_lt b.tail }.entries := by
  have hh := b.head_lt
  have t := b.tail_lt
  have pos : b.length ≠ 0 := fun e => by simp [b.isEmpty_iff.2 e] at h
  have hlen : { b with tail := b.advance b.tail, tail_lt := b.advance_lt b.tail }.length + 1 =
      b.length := by
    rw [length_eq] at pos ⊢
    rw [length_eq]
    simp only [b.advance_eq t] at *
    grind
  apply List.ext_getElem?
  intro i
  rw [List.getElem?_cons, getElem?_entries, getElem?_entries, ← hlen]
  cases i with
  | zero => simp
  | succ i =>
    have entry_eq : { b with tail := b.advance b.tail, tail_lt := b.advance_lt b.tail }.entry i =
        b.entry (i + 1) := by
      simp only [entry, position, advance, Nat.mod_add_mod, Nat.add_assoc, Nat.add_comm 1 i]
    simp [entry_eq]

theorem retire_eq (b : ReorderBuffer) :
    b.retire.map (fun p => (p.1, p.2.entries)) =
      match b.entries with
      | e :: rest => if e.waiting then none else some (e, rest)
      | [] => none := by
  cases h : b.isEmpty with
  | true => simp [retire, oldest?, h, List.length_eq_zero_iff.1 (b.length_entries.trans
      (b.isEmpty_iff.1 h))]
  | false =>
    rw [b.entries_advance h]
    by_cases w : (b.entry 0).waiting <;> simp [retire, oldest?, h, w]

theorem entries_complete (b : ReorderBuffer) (r : Result) :
    (b.complete r).1.entries =
      match b.entries.findIdx? (·.tag == r.tag) with
      | none => b.entries
      | some i => b.entries.modify i fun e => if e.waiting then e.complete r.outcome else e := by
  rw [complete_eq]
  cases h : b.entries.findIdx? (·.tag == r.tag) with
  | none => rfl
  | some i =>
    obtain ⟨hi, -⟩ := List.findIdx?_eq_some_iff_getElem.1 h
    have e := b.entry_eq_getElem hi
    rw [b.length_entries] at hi
    apply List.ext_getElem?
    intro j
    by_cases w : (b.entry i).waiting <;> by_cases hj : i = j
    · subst hj
      simp [w, b.entries_set hi, hi, ← e]
    · simp [w, b.entries_set hi, hj]
    · subst hj
      simp [w, hi, ← e]
    · simp [w, hj]

end OutOfOrder.ReorderBuffer
