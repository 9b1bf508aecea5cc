import Mathlib
import OutOfOrder.Proofs.Phases

/-!
# Operands that are awaited

An operand that was given waiting is filled once: at dispatch, from the buffer or from the committed
results, or later by a broadcast. Until then it waits in a slot of the station. So the operands
that were filled and those that still wait add up to those that were given waiting, whichever way
each of them came by its value: `Core.accounted` is changed by nothing but the installation of an
instruction, which adds its waiting operands (`accounted_install`).
-/

namespace OutOfOrder

/-- An operand that takes a value does not wait any more. -/
theorem Operand.count_resolve (o : Operand) (t : Tag) (value : Int32) :
    (if (o.resolve t value).2 then 1 else 0) + (if (o.resolve t value).1.waiting then 1 else 0) =
      if o.waiting then 1 else 0 := by
  obtain ⟨hw, rfl, -⟩ | ⟨hn, -⟩ := o.resolve_cases t value
  · simp [resolve, waitsOn, hw]
  · cases hw : o.waiting with
    | false => simp [resolve, waitsOn, hw]
    | true => simp [resolve, waitsOn, hw, hn hw]

namespace Operands

/-- How many operands wait. -/
def awaiting (o : Operands Operand) : Nat := [o.a, o.b, o.f].countP (·.waiting)

theorem awaiting_of_ready {o : Operands Operand} (h : o.ready = true) : o.awaiting = 0 := by
  rw [awaiting, List.countP_eq_zero]
  intro slot hs
  simpa using List.all_eq_true.1 h slot hs

/-- The operands that take a result, and those that wait after it. -/
theorem awaiting_resolve (o : Operands Operand) (t : Tag) (outcome : Outcome) :
    (o.resolve t outcome).2 + (o.resolve t outcome).1.awaiting = o.awaiting := by
  have ha := o.a.count_resolve t (outcome.read .a)
  have hb := o.b.count_resolve t (outcome.read .b)
  have hf := o.f.count_resolve t (outcome.read .f)
  simp only [resolve, awaiting, toList, map, List.countP_cons, List.countP_nil]
  omega

end Operands

/-! ## The station -/

namespace Station

/-- How many operands wait in the station. -/
def awaiting (s : Station) : Nat := (s.live.map (·.operands.awaiting)).sum

theorem Entry.awaiting_wake {e : Entry} (h : e.occupied = true) (r : Result) :
    (e.wake r).2 + (e.wake r).1.operands.awaiting = e.operands.awaiting := by
  rw [wake, if_pos h]
  exact e.operands.awaiting_resolve r.tag r.outcome

/-- A count that is carried along is a sum. -/
theorem foldl_count {α : Type} (f : α → Nat) (l : List α) (n : Nat) :
    l.foldl (fun taken x => taken + f x) n = n + (l.map f).sum := by
  induction l generalizing n with
  | nil => rfl
  | cons x l ih => rw [List.foldl_cons, ih, List.map_cons, List.sum_cons, Nat.add_assoc]

/-- Free slots take nothing. -/
theorem wake_count (s : Station) (r : Result) :
    (s.wake r).2 = (s.live.map fun e => (e.wake r).2).sum := by
  have hsum := foldl_count (fun woken : Entry × Nat => woken.2) (s.slots.map fun e => e.wake r) 0
  rw [Nat.zero_add, List.map_map] at hsum
  refine hsum.trans ?_
  rw [live]
  induction s.slots with
  | nil => rfl
  | cons e l ih =>
    rw [List.map_cons, List.sum_cons, ih]
    cases ho : e.occupied with
    | true => rw [List.filter_cons_of_pos ho, List.map_cons, List.sum_cons]; rfl
    | false =>
      rw [List.filter_cons_of_neg (by simp [ho])]
      simp [Entry.wake, ho]

/-- The operands that are filled by a broadcast, and those that wait after it. -/
theorem awaiting_wake (s : Station) (r : Result) :
    (s.wake r).2 + (s.wake r).1.awaiting = s.awaiting := by
  rw [wake_count, awaiting, live_wake, List.map_map, ← List.sum_map_add, awaiting]
  refine congrArg List.sum (List.map_congr_left fun e he => ?_)
  exact Entry.awaiting_wake (occupied_of_mem_live he) r

theorem awaiting_push {s : Station} (hc : s.Counted) (hf : s.isFull = false) (i : Instruction) :
    (s.push i).1.awaiting = i.operands.awaiting + s.awaiting := by
  have := ((live_push hc hf i).map (·.operands.awaiting)).sum_eq
  rwa [List.map_cons, List.sum_cons] at this

/-- What is issued waits for nothing. -/
theorem awaiting_issue {s s' : Station} {r : Request} (h : s.issue = some (r, s')) :
    s'.awaiting = s.awaiting := by
  obtain ⟨e, n, -, -, hready, -, hp, -⟩ := issue_eq_some h
  have hsum := (hp.map (·.operands.awaiting)).sum_eq
  simp only [Entry.ready, Bool.and_eq_true] at hready
  rw [List.map_cons, List.sum_cons, Operands.awaiting_of_ready hready.2, Nat.zero_add] at hsum
  exact hsum.symm

end Station

/-! ## The core -/

namespace Core

/-- The operands that were given waiting: those that were filled, and those that still wait. -/
def accounted (c : Core) : Nat :=
  c.stats.woken + c.stats.forwarded + c.stats.committed + c.station.awaiting

theorem count_resolve (c : Core) (k : Input) (slot : Operand) :
    (if (c.resolve k slot).2.isSome then 1 else 0) +
        (if (c.resolve k slot).1.waiting then 1 else 0) =
      if slot.waiting then 1 else 0 := by
  cases hw : slot.waiting with
  | false => simp [resolve, hw]
  | true =>
    cases hs : c.supply? slot.tag with
    | none => simp [resolve, hw, hs]
    | some s => simp [resolve, hw, hs, Operand.resolve, Operand.waitsOn]

/-- The supplies that dispatch finds, and the operands that are installed waiting. -/
theorem length_supplies (c : Core) (i : Instruction) :
    (c.supplies i).length + (c.resolved i).operands.awaiting = i.operands.awaiting := by
  have ha := c.count_resolve .a i.operands.a
  have hb := c.count_resolve .b i.operands.b
  have hf := c.count_resolve .f i.operands.f
  have hlen : (c.supplies i).length =
      (i.operands.map fun k slot => (c.resolve k slot).2).toList.countP Option.isSome :=
    List.length_filterMap_eq_countP ..
  simp only [hlen, resolved, Operands.awaiting, Operands.toList, Operands.map, List.countP_cons,
    List.countP_nil]
  omega

theorem countP_supplies (l : List Supply) :
    l.countP (·.isForwarded) + l.countP (·.isCommitted) = l.length := by
  induction l with
  | nil => rfl
  | cons s l ih =>
    rw [List.countP_cons, List.countP_cons, List.length_cons]
    cases s with
    | forwarded o =>
      change l.countP (·.isForwarded) + 1 + l.countP (·.isCommitted) = _
      omega
    | committed o =>
      change l.countP (·.isForwarded) + (l.countP (·.isCommitted) + 1) = _
      omega

theorem accounted_install {c : Core} (hc : c.station.Counted) (hf : c.station.isFull = false)
    (i : Instruction) : (c.install i).accounted = c.accounted + i.operands.awaiting := by
  have h1 := c.length_supplies i
  have h2 := countP_supplies (c.supplies i)
  have h3 : (c.install i).station.awaiting = _ := Station.awaiting_push hc hf (c.resolved i)
  simp only [accounted, h3]
  simp only [install]
  omega

theorem accounted_deliver (c : Core) : c.deliver.core.accounted = c.accounted := by
  cases h : c.bus.pending with
  | none => rw [deliver_idle h]
  | some r =>
    have := c.station.awaiting_wake r
    rw [deliver_busy h]
    simp only [accounted]
    omega

theorem accounted_retire (c : Core) : c.retire.core.accounted = c.accounted := by
  unfold retire
  split
  · rfl
  · split <;> rfl

end Core

end OutOfOrder
