import Mathlib
import OutOfOrder.Proofs.Contract
import OutOfOrder.Proofs.History

/-!
# The age of tags

Distances are counted round the space, so they are read as integers modulo its size: there every
tag has its place whether it is in the space or not (`distance_eq_emod`), and age is a comparison
of places as long as all are within one window (`older_iff_distance_lt`). Half a lap is as far as
this goes: a row of tags is in order of age just when a window holds it (`inAgeOrder_range'`), which
is why so many instructions may be in flight and no more (`age_is_allocation_order`).
-/

namespace OutOfOrder

namespace TagSpace

variable (s : TagSpace)

theorem size_eq_two_pow : s.size = 2 ^ s.bits := Nat.one_shiftLeft _

theorem window_eq_two_pow : s.window = 2 ^ (s.bits - 1) := Nat.one_shiftLeft _

/-! ## Distances -/

/-- A distance is the difference of the two words, counted within a lap. -/
theorem distance_eq_emod (a b : Tag) :
    (s.distance a b : ℤ) = ((b.index : ℤ) - a.index) % s.size := by
  have ha := a.index_lt
  obtain ⟨laps, hlaps⟩ := s.size_dvd
  have hsub : ((b.index + UInt16.size - a.index : ℕ) : ℤ) =
      (b.index : ℤ) - a.index + s.size * laps := by
    rw [Nat.cast_sub (by omega), Nat.cast_add, hlaps, Nat.cast_mul]
    ring
  rw [distance, Int.natCast_emod, hsub, Int.add_mul_emod_self_left]

/-- The same difference, taken in words of 32 bits and cut to the bits of the space. -/
theorem distance_eq_words (a b : Tag) :
    s.distance a b =
      ((b.number.toUInt32 - a.number.toUInt32) &&& (UInt32.ofNat s.size - 1)).toNat := by
  have ha : a.number.toNat < 2 ^ 16 := a.index_lt
  have hb : b.number.toNat < 2 ^ 16 := b.index_lt
  have hsize : s.size ≤ 2 ^ 16 := s.size_le
  have hmask : (UInt32.ofNat s.size - 1).toNat = 2 ^ s.bits - 1 := by
    have hpos := s.size_pos
    rw [UInt32.toNat_sub, UInt32.toNat_ofNat', Nat.mod_eq_of_lt (show s.size < 2 ^ 32 by omega),
      UInt32.toNat_one, ← size_eq_two_pow]
    omega
  -- 32 bits hold a whole number of laps, as 16 bits do
  have hdvd : s.size ∣ 2 ^ 32 := s.size_dvd.trans (by decide)
  rw [UInt32.toNat_and, hmask, Nat.and_two_pow_sub_one_eq_mod, ← size_eq_two_pow,
    UInt32.toNat_sub, UInt16.toNat_toUInt32, UInt16.toNat_toUInt32, Nat.mod_mod_of_dvd _ hdvd,
    show 2 ^ 32 - a.number.toNat + b.number.toNat =
      b.number.toNat + 2 ^ 16 - a.number.toNat + (2 ^ 16 - 1) * 2 ^ 16 by omega]
  exact ((Nat.modEq_zero_iff_dvd.2 (Dvd.dvd.mul_left s.size_dvd _)).add_left _).symm

/-- Distances from a third tag tell the distance of two. -/
theorem distance_eq_sub_emod (base a b : Tag) :
    (s.distance a b : ℤ) = ((s.distance base b : ℤ) - s.distance base a) % s.size := by
  rw [distance_eq_emod, distance_eq_emod, distance_eq_emod, ← Int.sub_emod]
  congr 1
  ring

theorem distance_tag_eq_emod (m n : ℕ) :
    (s.distance (s.tag m) (s.tag n) : ℤ) = ((n : ℤ) - m) % s.size := by
  rw [distance_eq_emod, index_tag, index_tag, Int.natCast_emod, Int.natCast_emod, ← Int.sub_emod]

/-! ## Age -/

theorem older_iff (a b : Tag) :
    s.older a b = true ↔ 0 < s.distance a b ∧ s.distance a b < s.window := by
  rw [older, Bool.and_eq_true, decide_eq_true_eq, decide_eq_true_eq]

/-- Within a window that begins at some tag, the older of two tags is the one nearer to it. -/
theorem older_iff_distance_lt {base a b : Tag} (ha : s.distance base a < s.window)
    (hb : s.distance base b < s.window) :
    s.older a b = true ↔ s.distance base a < s.distance base b := by
  have hd := s.distance_eq_sub_emod base a b
  have hs := s.size_eq
  rw [older_iff]
  rcases Nat.lt_trichotomy (s.distance base a) (s.distance base b) with h | h | h
  · rw [Int.emod_eq_of_lt (by omega) (by omega)] at hd
    omega
  · rw [h, sub_self, Int.zero_emod] at hd
    omega
  · -- the way up goes round, by more than the half lap that is left
    rw [← Int.add_emod_right, Int.emod_eq_of_lt (by omega) (by omega)] at hd
    omega

theorem older_self (a : Tag) : s.older a a = false := by
  have hd := s.distance_eq_emod a a
  rw [sub_self, Int.zero_emod, Int.natCast_eq_zero] at hd
  simp [older, hd]

theorem older_asymm (a b : Tag) : (s.older a b && s.older b a) = false := by
  rw [← Bool.not_eq_true, Bool.and_eq_true, older_iff, older_iff]
  rintro ⟨⟨hpos, hlt⟩, -, hlt'⟩
  have hd := s.distance_eq_sub_emod a b a
  have hs := s.size_eq
  -- the way back is what is left of the lap
  rw [s.distance_eq_emod a a, sub_self, Int.zero_emod, ← Int.add_emod_right,
    Int.emod_eq_of_lt (by omega) (by omega)] at hd
  omega

/-- Age tells the order in which the tags stand, and no other. -/
def InAgeOrder (tags : List Tag) : Prop :=
  ∀ (i j : ℕ) (a b : Tag), tags[i]? = some a → tags[j]? = some b → (s.older a b = true ↔ i < j)

/-- Tags in a row are in the order of their age just when they are within a window. -/
theorem inAgeOrder_range' (first n : ℕ) :
    s.InAgeOrder ((List.range' first n).map s.tag) ↔ n ≤ s.window := by
  have hsize := s.size_eq
  have hpos := s.size_pos
  have hat : ∀ {i : ℕ} {t : Tag}, ((List.range' first n).map s.tag)[i]? = some t ↔
      i < n ∧ s.tag (first + i) = t := by
    intro i t
    simp [List.getElem?_eq_some_iff]
  have hnear : ∀ {m : ℕ}, m < s.size → s.distance (s.tag first) (s.tag (first + m)) = m :=
    fun hm => s.distance_tag rfl hm
  constructor
  · intro h
    by_contra hn
    -- the first tag and the one half a lap after it
    have := (h 0 s.window _ _ (hat.2 ⟨by omega, rfl⟩) (hat.2 ⟨by omega, rfl⟩)).2 (by omega)
    rw [older_iff, Nat.add_zero, hnear (by omega)] at this
    omega
  · intro hn i j a b ha hb
    obtain ⟨hi, rfl⟩ := hat.1 ha
    obtain ⟨hj, rfl⟩ := hat.1 hb
    have hdi := hnear (show i < s.size by omega)
    have hdj := hnear (show j < s.size by omega)
    rw [s.older_iff_distance_lt (hdi.trans_lt (by omega)) (hdj.trans_lt (by omega)), hdi, hdj]

/-- Tags of one bit have a window of one: neither of two in a row is older. -/
example :
    let s : TagSpace := ⟨1, by decide, by decide⟩
    s.older (s.tag 0) (s.tag 1) = false ∧ s.older (s.tag 1) (s.tag 2) = false := by
  decide

end TagSpace

/-! ## Tags as they are handed out -/

namespace TagAllocator

/-- The tag that is handed out after `i` others. -/
def nth (a : TagAllocator) (i : ℕ) : Tag := (a.allocateMany i).2.allocate.1

/-- An allocator goes on from where it has come to. -/
theorem allocateMany_startingAt (s : TagSpace) (m n : ℕ) :
    ((startingAt s m).allocateMany n).2 = startingAt s (m + n) := by
  induction n generalizing m with
  | zero => rfl
  | succ n ih =>
    rw [allocateMany, allocate_startingAt]
    exact (ih (m + 1)).trans (congrArg _ (by omega))

theorem nth_startingAt (s : TagSpace) (m i : ℕ) : (startingAt s m).nth i = s.tag (m + i) := by
  rw [nth, allocateMany_startingAt, allocate_startingAt]

theorem allocateMany_eq_map_nth (s : TagSpace) (first n : ℕ) :
    ((startingAt s first).allocateMany n).1 = (List.range n).map (startingAt s first).nth := by
  rw [allocateMany_eq, List.range'_eq_map_range, List.map_map]
  exact List.map_congr_left fun i _ => (nth_startingAt s first i).symm

theorem inAgeOrder_allocateMany (s : TagSpace) (first n : ℕ) :
    s.InAgeOrder ((startingAt s first).allocateMany n).1 ↔ n ≤ s.window := by
  rw [allocateMany_eq, s.inAgeOrder_range']

theorem older_nth (s : TagSpace) (first i j : ℕ) :
    s.older ((startingAt s first).nth i) ((startingAt s first).nth j) = true ↔
      0 < ((j : ℤ) - i) % 2 ^ s.bits ∧ ((j : ℤ) - i) % 2 ^ s.bits < 2 ^ (s.bits - 1) := by
  have hd := s.distance_tag_eq_emod (first + i) (first + j)
  rw [Nat.cast_add, Nat.cast_add, add_sub_add_left_eq_sub, s.size_eq_two_pow, Nat.cast_pow,
    Nat.cast_ofNat] at hd
  rw [nth_startingAt, nth_startingAt, s.older_iff, ← hd, s.window_eq_two_pow]
  exact_mod_cast Iff.rfl

end TagAllocator

theorem Config.validate_eq_ok_iff (c : Config) :
    c.validate = .ok () ↔
      0 < c.stationEntries ∧ 2 ≤ c.bufferEntries ∧ c.predictorState ≤ 3 ∧
        ∃ s, c.tagSpace = .ok s ∧ c.bufferEntries ≤ s.window + 1 := by
  refine ⟨validate_eq_ok, fun ⟨hstation, hbuffer, hpredictor, s, hs, hwindow⟩ => ?_⟩
  rw [validate, if_neg (by omega), if_neg (by omega), hs]
  dsimp only
  rw [if_neg (by omega), if_neg (by omega)]

/-- Tags come in circular order, and one is older than another when going up to it takes fewer
steps than half a lap. So age is the order of allocation on any `n` tags in a row just when `n` is
at most the window, and what a valid configuration may have in flight is at most that. Whatever
words two tags are, they are never each older than the other. -/
theorem age_is_allocation_order :
    (∀ (s : TagSpace) (first : ℕ),
      let a := TagAllocator.startingAt s first
      (∀ n, (a.allocateMany n).1 = (List.range n).map a.nth) ∧
        (∀ i, (a.nth i).index = (first + i) % 2 ^ s.bits) ∧
        (∀ i j : ℕ, s.older (a.nth i) (a.nth j) = true ↔
          0 < ((j : ℤ) - i) % 2 ^ s.bits ∧ ((j : ℤ) - i) % 2 ^ s.bits < 2 ^ (s.bits - 1)) ∧
        ∀ m n, s.InAgeOrder ((a.allocateMany m).2.allocateMany n).1 ↔ n ≤ s.window) ∧
      (∀ (s : TagSpace) (a b : Tag),
        s.distance a b =
            ((b.number.toUInt32 - a.number.toUInt32) &&& (UInt32.ofNat s.size - 1)).toNat ∧
          s.older a a = false ∧ (s.older a b && s.older b a) = false) ∧
      ∀ c : Config, c.validate = .ok () ↔
        0 < c.stationEntries ∧ 2 ≤ c.bufferEntries ∧ c.predictorState ≤ 3 ∧
          ∃ s, c.tagSpace = .ok s ∧
            ∀ first, s.InAgeOrder
              ((TagAllocator.startingAt s first).allocateMany (c.bufferEntries - 1)).1 := by
  refine ⟨fun s first => ⟨?_, fun i => ?_, ?_, fun m n => ?_⟩,
    fun s a b => ⟨s.distance_eq_words a b, s.older_self a, s.older_asymm a b⟩, fun c => ?_⟩
  · exact TagAllocator.allocateMany_eq_map_nth s first
  · rw [TagAllocator.nth_startingAt, s.index_tag, s.size_eq_two_pow]
  · exact TagAllocator.older_nth s first
  · rw [TagAllocator.allocateMany_startingAt, TagAllocator.inAgeOrder_allocateMany]
  · simp only [c.validate_eq_ok_iff, TagAllocator.inAgeOrder_allocateMany, forall_const,
      Nat.sub_le_iff_le_add]

end OutOfOrder
