import OutOfOrder.Instruction

/-!
# The reorder buffer

A ring of cells that keeps instructions in the order in which they entered, until the oldest is
complete and may retire. `head` is the cell for the next entry and `tail` that of the oldest one;
one cell always stays free, so that equal marks mean an empty buffer. `entries` is what the buffer
holds as a list, oldest first.
-/

namespace OutOfOrder

namespace ReorderBuffer

structure Entry where
  waiting : Bool
  opcode : Opcode
  tag : Tag
  outcome : Outcome
deriving DecidableEq, Inhabited

/-- An entry as it comes in. -/
def Entry.pending (opcode : Opcode) (tag : Tag) : Entry := ⟨true, opcode, tag, ⟨0, 0⟩⟩

def Entry.complete (e : Entry) (outcome : Outcome) : Entry := { e with waiting := false, outcome }

end ReorderBuffer

structure ReorderBuffer where
  cells : Array ReorderBuffer.Entry
  head : Nat
  tail : Nat
  two_le : 2 ≤ cells.size
  head_lt : head < cells.size
  tail_lt : tail < cells.size

namespace ReorderBuffer

/-- A buffer of fewer than two cells could hold nothing, so it gets two. -/
def empty (capacity : Nat) : ReorderBuffer where
  cells := Array.replicate (max capacity 2) default
  head := 0
  tail := 0
  two_le := by rw [Array.size_replicate]; omega
  head_lt := by rw [Array.size_replicate]; omega
  tail_lt := by rw [Array.size_replicate]; omega

def capacity (b : ReorderBuffer) : Nat := b.cells.size

theorem size_pos (b : ReorderBuffer) : 0 < b.cells.size := Nat.zero_lt_of_lt b.head_lt

/-- The cell after `i`, going round. -/
def advance (b : ReorderBuffer) (i : Nat) : Nat := (i + 1) % b.cells.size

theorem advance_lt (b : ReorderBuffer) (i : Nat) : b.advance i < b.cells.size :=
  Nat.mod_lt _ b.size_pos

theorem advance_eq (b : ReorderBuffer) {i : Nat} (h : i < b.cells.size) :
    b.advance i = if i + 1 = b.cells.size then 0 else i + 1 := by
  unfold advance
  split
  · next h => rw [h, Nat.mod_self]
  · exact Nat.mod_eq_of_lt (by omega)

def length (b : ReorderBuffer) : Nat := (b.head + b.cells.size - b.tail) % b.cells.size

def isEmpty (b : ReorderBuffer) : Bool := b.head == b.tail

def isFull (b : ReorderBuffer) : Bool := b.advance b.head == b.tail

/-- The cell that holds the entry with `i` older ones before it. -/
def position (b : ReorderBuffer) (i : Nat) : Nat := (b.tail + i) % b.cells.size

theorem position_lt (b : ReorderBuffer) (i : Nat) : b.position i < b.cells.size :=
  Nat.mod_lt _ b.size_pos

def entry (b : ReorderBuffer) (i : Nat) : Entry :=
  have := b.position_lt i
  b.cells[b.position i]

/-- What the buffer holds, oldest first. -/
def entries (b : ReorderBuffer) : List Entry := (List.range b.length).map b.entry

/-- Another entry in cell `n`. -/
def write (b : ReorderBuffer) (n : Fin b.cells.size) (e : Entry) : ReorderBuffer where
  cells := b.cells.set n e
  head := b.head
  tail := b.tail
  two_le := by simpa using b.two_le
  head_lt := by simpa using b.head_lt
  tail_lt := by simpa using b.tail_lt

/-- Appends an instruction unless the buffer is full, and tells whether it did. -/
def push (b : ReorderBuffer) (opcode : Opcode) (tag : Tag) : ReorderBuffer × Bool :=
  if b.isFull then (b, false)
  else
    ({ cells := b.cells.set b.head (.pending opcode tag) b.head_lt
       head := b.advance b.head
       tail := b.tail
       two_le := by simpa using b.two_le
       head_lt := by simpa using b.advance_lt b.head
       tail_lt := by simpa using b.tail_lt }, true)

/-- How many cells there are from one cell up to another, going round. -/
theorem between_eq (b : ReorderBuffer) {i j : Nat} (hi : i < b.cells.size) (hj : j < b.cells.size) :
    (j + b.cells.size - i) % b.cells.size =
      if i ≤ j then j - i else j + b.cells.size - i := by
  split
  · rw [show j + b.cells.size - i = (j - i) + b.cells.size by omega, Nat.add_mod_right,
      Nat.mod_eq_of_lt (by omega)]
  · exact Nat.mod_eq_of_lt (by omega)

/-- Up to the head there are fewer cells from the next one on. -/
theorem advance_nearer (b : ReorderBuffer) {i : Nat} (hi : i < b.cells.size) (h : i ≠ b.head) :
    (b.head + b.cells.size - b.advance i) % b.cells.size <
      (b.head + b.cells.size - i) % b.cells.size := by
  have hh := b.head_lt
  rw [b.between_eq (b.advance_lt i) hh, b.between_eq hi hh, b.advance_eq hi]
  grind

/-- The first cell from `i` on that carries the tag, going round and stopping at the head. -/
def findFrom (b : ReorderBuffer) (t : Tag) (i : Fin b.cells.size) : Option (Fin b.cells.size) :=
  if h : i = b.head then none
  else if b.cells[i].tag == t then some i
  else b.findFrom t ⟨b.advance i, b.advance_lt i⟩
termination_by (b.head + b.cells.size - i) % b.cells.size
decreasing_by exact b.advance_nearer i.2 h

/-- The cell of the oldest entry that carries the tag. -/
def find (b : ReorderBuffer) (t : Tag) : Option (Fin b.cells.size) :=
  b.findFrom t ⟨b.tail, b.tail_lt⟩

/-- Stores an outcome with the oldest entry that carries the tag, if that one still waits, and
tells whether it did. -/
def complete (b : ReorderBuffer) (r : Result) : ReorderBuffer × Bool :=
  match b.find r.tag with
  | none => (b, false)
  | some n =>
    if b.cells[n].waiting then (b.write n (b.cells[n].complete r.outcome), true) else (b, false)

def oldest? (b : ReorderBuffer) : Option Entry := if b.isEmpty then none else some (b.entry 0)

/-- Takes the oldest entry out if it is complete. -/
def retire (b : ReorderBuffer) : Option (Entry × ReorderBuffer) :=
  match b.oldest? with
  | none => none
  | some e =>
    if e.waiting then none
    else some (e, { b with tail := b.advance b.tail, tail_lt := b.advance_lt b.tail })

/-- The outcome of the oldest complete entry that carries the tag. -/
def lookup (b : ReorderBuffer) (t : Tag) : Option Outcome :=
  (b.entries.find? fun e => e.tag == t && !e.waiting).map (·.outcome)

end ReorderBuffer

end OutOfOrder
