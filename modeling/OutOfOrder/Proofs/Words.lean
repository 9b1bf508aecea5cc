import Mathlib
import OutOfOrder.Json.String
import OutOfOrder.Text.Layout

/-!
# Words and numerals

A line of text is put together from words, and a word from signs and numerals. A decimal numeral
has nothing but digits, maybe after a sign (`mem_repr`), and tells its number (`Int.repr_inj`). So
does a hexadecimal one, whatever zeros fill it up (`hex_inj`). No numeral has a blank in it, so the
words of a line are found again where the line is broken at its blanks (`intercalate_inj`).
-/

namespace OutOfOrder.Text

/-! ## Words -/

/-- A text that nobody takes for two words. -/
def IsWord (s : String) : Prop := ' ' ∉ s.toList

instance (s : String) : Decidable (IsWord s) := inferInstanceAs (Decidable (' ' ∉ s.toList))

@[simp] theorem isWord_append {s t : String} : IsWord (s ++ t) ↔ IsWord s ∧ IsWord t := by
  simp [IsWord]

/-- Words that a line can be put together from. An empty line would be taken for an empty word. -/
structure IsLine (words : List String) : Prop where
  nonempty : words ≠ []
  isWord : ∀ w ∈ words, IsWord w

theorem IsLine.splitOn_intercalate {l : List String} (h : IsLine l) :
    (" ".intercalate l).toList.splitOn ' ' = l.map String.toList := by
  rw [String.toList_intercalate]
  refine List.splitOn_intercalate ' ' ?_ (by simpa using h.nonempty)
  simpa [IsWord] using h.isWord

/-- A line gives its words back. -/
theorem intercalate_inj {l l' : List String} (h : IsLine l) (h' : IsLine l') :
    " ".intercalate l = " ".intercalate l' ↔ l = l' := by
  constructor
  · intro heq
    have hwords : l.map String.toList = l'.map String.toList := by
      rw [← h.splitOn_intercalate, heq, h'.splitOn_intercalate]
    exact List.map_injective_iff.2 (fun _ _ => String.toList_inj.1) hwords
  · rintro rfl
    rfl

/-! ## Decimal numerals -/

theorem mem_repr {z : ℤ} {c : Char} (h : c ∈ z.repr.toList) : c = '-' ∨ c.isDigit = true := by
  have hdigit {n : ℕ} (h : c ∈ n.repr.toList) : c.isDigit = true := by
    rw [Nat.repr_eq_ofList_toDigits, String.toList_ofList] at h
    exact Nat.isDigit_of_mem_toDigits (by decide) (by decide) h
  rw [Int.repr_eq_if] at h
  split at h
  · exact .inr (hdigit h)
  · rw [String.toList_append, List.mem_append] at h
    rcases h with h | h
    · exact .inl (List.mem_singleton.1 h)
    · exact .inr (hdigit h)

theorem not_mem_repr {z : ℤ} {c : Char} (hminus : c ≠ '-') (hdigit : c.isDigit = false) :
    c ∉ z.repr.toList := by
  intro h
  rcases mem_repr h with h | h
  · exact hminus h
  · rw [hdigit] at h
    cases h

@[simp] theorem isWord_repr (z : ℤ) : IsWord z.repr := not_mem_repr (by decide) (by decide)

/-! ## Hexadecimal numerals -/

/-- The number that hexadecimal digits stand for. -/
def hexValue (digits : List Char) : ℕ :=
  digits.foldl (fun n c => 16 * n + (Json.Reader.hexDigit? c).getD 0) 0

theorem hexDigit?_digitChar : ∀ d < 16, Json.Reader.hexDigit? d.digitChar = some d := by decide

theorem mem_toDigits {c : Char} (n : ℕ) (h : c ∈ Nat.toDigits 16 n) :
    ∃ d < 16, c = d.digitChar := by
  induction n using Nat.strongRecOn with
  | ind n ih =>
    rw [Nat.toDigits_eq_if (by decide)] at h
    split at h
    · next hn => exact ⟨n, hn, List.mem_singleton.1 h⟩
    · next hn =>
      rcases List.mem_append.1 h with h | h
      · exact ih (n / 16) (by omega) h
      · exact ⟨n % 16, Nat.mod_lt n (by decide), List.mem_singleton.1 h⟩

theorem hexValue_toDigits (n : ℕ) : hexValue (Nat.toDigits 16 n) = n := by
  induction n using Nat.strongRecOn with
  | ind n ih =>
    rw [Nat.toDigits_eq_if (by decide)]
    split
    · next hn => simp [hexValue, hexDigit?_digitChar n hn]
    · next hn =>
      have hrest : hexValue (Nat.toDigits 16 (n / 16)) = n / 16 := ih (n / 16) (by omega)
      rw [hexValue, List.foldl_append, ← hexValue, hrest, List.foldl_cons, List.foldl_nil,
        hexDigit?_digitChar _ (Nat.mod_lt n (by decide)), Option.getD_some, Nat.div_add_mod]

theorem hexValue_replicate_append (k : ℕ) (digits : List Char) :
    hexValue (List.replicate k '0' ++ digits) = hexValue digits := by
  induction k with
  | zero => rfl
  | succ k ih => exact ih

theorem hex_inj {width m n : ℕ} : hex width m = hex width n ↔ m = n := by
  have hvalue (n : ℕ) : hexValue ((Nat.toDigits 16 n).leftpad width '0') = n := by
    rw [List.leftpad, hexValue_replicate_append, hexValue_toDigits]
  constructor
  · intro h
    rw [hex, hex, String.append_right_inj, String.ofList_inj] at h
    rw [← hvalue m, h, hvalue]
  · rintro rfl
    rfl

@[simp] theorem isWord_hex (width n : ℕ) : IsWord (hex width n) := by
  have hdigit : ∀ d < 16, ' ' ≠ d.digitChar := by decide
  rw [hex, isWord_append]
  refine ⟨by decide, fun h => ?_⟩
  rw [String.toList_ofList, List.leftpad, List.mem_append, List.mem_replicate] at h
  rcases h with ⟨-, h⟩ | h
  · exact absurd h (by decide)
  · obtain ⟨d, hd, hc⟩ := mem_toDigits n h
    exact hdigit d hd hc

end OutOfOrder.Text
