import OutOfOrder.Config.Error

/-!
# Result tags

An instruction in flight is known by the tag that its result will carry. Tags are drawn in circular
order from a space of `2 ^ bits` names, so the same tag comes back after a lap, and the age of two
tags is a matter of circular distance: `a` is older than `b` when going up from `a` to `b` takes
at least one and fewer than `window` steps, half a lap. The answer follows the order in which the
tags were drawn as long as no more than `window` consecutive tags are compared.
-/

namespace OutOfOrder

/-- A tag is any 16-bit word. The tags of a narrower space are its first `2 ^ bits` words. -/
structure Tag where
  number : UInt16
deriving DecidableEq, Inhabited

namespace Tag

def index (t : Tag) : Nat := t.number.toNat

def text (t : Tag) : String := s!"[{t.index}]"

theorem index_lt (t : Tag) : t.index < UInt16.size := t.number.toNat_lt

theorem index_inj {a b : Tag} : a.index = b.index ↔ a = b := by
  cases a; cases b; simp [index, UInt16.toNat_inj]

end Tag

/-! ## Tag spaces -/

structure TagSpace where
  bits : Nat
  one_le_bits : 1 ≤ bits
  bits_le : bits ≤ 16
deriving DecidableEq

namespace TagSpace

def ofBits (bits : Nat) : Except ConfigError TagSpace :=
  if h : 1 ≤ bits ∧ bits ≤ 16 then .ok ⟨bits, h.1, h.2⟩ else .error (.tagBits bits)

/-- How many tags a lap has. -/
def size (s : TagSpace) : Nat := 1 <<< s.bits

/-- Half a lap: the longest run of consecutive tags whose order can be told. -/
def window (s : TagSpace) : Nat := 1 <<< (s.bits - 1)

/-- The tag that `n` counts to, going round as often as needed. -/
def tag (s : TagSpace) (n : Nat) : Tag := ⟨UInt16.ofNat (n % s.size)⟩

def contains (s : TagSpace) (n : Nat) : Bool := n < s.size

def next (s : TagSpace) (t : Tag) : Tag := s.tag (t.index + 1)

/-- Steps from `a` up to `b`. Tags outside the space count as the words they are. -/
def distance (s : TagSpace) (a b : Tag) : Nat := (b.index + UInt16.size - a.index) % s.size

def older (s : TagSpace) (a b : Tag) : Bool :=
  0 < s.distance a b && s.distance a b < s.window

theorem size_pos (s : TagSpace) : 0 < s.size := by
  rw [size, Nat.one_shiftLeft]
  exact Nat.two_pow_pos _

theorem size_eq (s : TagSpace) : s.size = 2 * s.window := by
  have h := s.one_le_bits
  obtain ⟨n, hn⟩ : ∃ n, s.bits = n + 1 := ⟨s.bits - 1, by omega⟩
  simp [size, window, hn, Nat.one_shiftLeft, Nat.pow_succ, Nat.mul_comm]

theorem size_le (s : TagSpace) : s.size ≤ UInt16.size := by
  rw [size, Nat.one_shiftLeft]
  exact Nat.pow_le_pow_right (by decide) s.bits_le

@[simp] theorem index_tag (s : TagSpace) (n : Nat) : (s.tag n).index = n % s.size := by
  have h1 := Nat.mod_lt n s.size_pos
  have h2 := s.size_le
  simpa [Tag.index, tag, UInt16.toNat_ofNat'] using
    (Nat.mod_eq_of_lt (Nat.lt_of_lt_of_le h1 h2))

end TagSpace

/-! ## Handing tags out -/

structure TagAllocator where
  space : TagSpace
  upcoming : Tag

namespace TagAllocator

def startingAt (space : TagSpace) (n : Nat) : TagAllocator := ⟨space, space.tag n⟩

def new (space : TagSpace) : TagAllocator := startingAt space 0

def allocate (a : TagAllocator) : Tag × TagAllocator :=
  (a.upcoming, { a with upcoming := a.space.next a.upcoming })

/-- The next `n` tags, in the order in which they are handed out. -/
def allocateMany (a : TagAllocator) : Nat → List Tag × TagAllocator
  | 0 => ([], a)
  | n + 1 =>
    let (t, a) := a.allocate
    let (ts, a) := a.allocateMany n
    (t :: ts, a)

end TagAllocator

end OutOfOrder
