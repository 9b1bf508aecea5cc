import OutOfOrder.Operand

/-!
# Committed results

The outcome last committed under each tag, until an instruction takes the tag again. Tags stand in
increasing order, each at most once.
-/

namespace OutOfOrder

structure Committed where
  results : List (Tag × Outcome)
deriving DecidableEq

namespace Committed

def empty : Committed := ⟨[]⟩

def size (c : Committed) : Nat := c.results.length

def isEmpty (c : Committed) : Bool := c.results.isEmpty

def lookup (c : Committed) (t : Tag) : Option Outcome := c.results.lookup t

/-- Puts an outcome in the place of its tag, over the one before it. -/
def insert (t : Tag) (o : Outcome) : List (Tag × Outcome) → List (Tag × Outcome)
  | [] => [(t, o)]
  | (u, p) :: rest =>
    if t.index < u.index then (t, o) :: (u, p) :: rest
    else if t = u then (t, o) :: rest
    else (u, p) :: insert t o rest

def commit (c : Committed) (t : Tag) (o : Outcome) : Committed := ⟨insert t o c.results⟩

/-- Forgets what a tag stood for. -/
def reclaim (c : Committed) (t : Tag) : Committed := ⟨c.results.filter (·.1 != t)⟩

theorem lookup_insert (t u : Tag) (o : Outcome) (l : List (Tag × Outcome)) :
    (insert t o l).lookup u = if u = t then some o else l.lookup u := by
  induction l with
  | nil => grind [insert]
  | cons x l ih =>
    obtain ⟨v, p⟩ := x
    grind [insert]

@[simp] theorem lookup_commit (c : Committed) (t u : Tag) (o : Outcome) :
    (c.commit t o).lookup u = if u = t then some o else c.lookup u :=
  lookup_insert t u o c.results

@[simp] theorem lookup_reclaim (c : Committed) (t u : Tag) :
    (c.reclaim t).lookup u = if u = t then none else c.lookup u := by
  obtain ⟨l⟩ := c
  induction l with
  | nil => simp [reclaim, lookup]
  | cons x l ih =>
    obtain ⟨v, p⟩ := x
    simp only [reclaim, lookup] at ih ⊢
    grind

end Committed

end OutOfOrder
