import Mathlib
import OutOfOrder.Branch

/-!
# How often the predictor is wrong

The counter predicts the direction to whose end of its range it is nearer. What is left to that end
(`room`) is at most 3, and each branch that goes this way makes it less by one (`room_update_same`).
So of branches that go the same way one after another at most two are mispredicted, whatever was
before them (`misses_replicate`), and of any list at most two for each of its runs (`misses_le`).
Three in a row bring the counter to the end (`room_train_replicate`), and from there one step back
does not turn the prediction.
-/

namespace OutOfOrder

/-- Which way each branch goes, given its condition and the flags that this tests. -/
def BranchCondition.directions (branches : List (BranchCondition × Int32)) : List Bool :=
  branches.map fun b => b.1.taken b.2

namespace Counter

/-- Counting up and down from `n`, but not beyond 0 and 3. -/
def saturating (n : ℤ) (directions : List Bool) : ℤ :=
  directions.foldl (fun n up => max 0 (min 3 (n + if up then 1 else -1))) n

/-! ## Branches one after another -/

/-- What becomes of each branch, and the counter after the last one. -/
def resolveAll (c : Counter) : List (BranchCondition × Int32) → List BranchOutcome × Counter
  | [] => ([], c)
  | (condition, flags) :: rest =>
    let (o, c) := c.resolve condition flags
    let (os, c) := c.resolveAll rest
    (o :: os, c)

/-- The counter after it has learned these directions. -/
def train (c : Counter) (directions : List Bool) : Counter := directions.foldl update c

theorem train_append (c : Counter) (ds ds' : List Bool) :
    c.train (ds ++ ds') = (c.train ds).train ds' := List.foldl_append

theorem resolveAll_snd (c : Counter) (branches : List (BranchCondition × Int32)) :
    (c.resolveAll branches).2 = c.train (BranchCondition.directions branches) := by
  induction branches generalizing c with
  | nil => rfl
  | cons b branches ih => exact ih _

theorem length_resolveAll (c : Counter) (branches : List (BranchCondition × Int32)) :
    (c.resolveAll branches).1.length = branches.length := by
  induction branches generalizing c with
  | nil => rfl
  | cons b branches ih => exact congrArg Nat.succ (ih _)

/-- A branch is predicted by what the counter has learned from those before it. -/
theorem resolveAll_getElem? (c : Counter) {branches : List (BranchCondition × Int32)} {i : ℕ}
    {b : BranchCondition × Int32} (h : branches[i]? = some b) :
    (c.resolveAll branches).1[i]? =
      some ⟨(c.train ((BranchCondition.directions branches).take i)).predict, b.1.taken b.2⟩ := by
  induction branches generalizing c i with
  | nil => cases h
  | cons first branches ih =>
    cases i with
    | zero =>
      cases h
      rfl
    | succ i => exact ih _ h

theorem state_update (c : Counter) (taken : Bool) :
    ((c.update taken).state : ℤ) = max 0 (min 3 ((c.state : ℤ) + if taken then 1 else -1)) := by
  have hle := c.state_le
  unfold update
  cases taken with
  | true =>
    simp only [if_true]
    omega
  | false =>
    simp only [Bool.false_eq_true, if_false]
    omega

theorem state_train (c : Counter) (directions : List Bool) :
    ((c.train directions).state : ℤ) = saturating c.state directions := by
  induction directions generalizing c with
  | nil => rfl
  | cons d ds ih =>
    rw [train, List.foldl_cons, saturating, List.foldl_cons, ← state_update]
    exact ih _

theorem predict_train (c : Counter) (directions : List Bool) :
    (c.train directions).predict = decide (2 ≤ saturating c.state directions) := by
  have hstate := c.state_train directions
  rw [predict, decide_eq_decide]
  omega

/-! ## The way to either end -/

/-- How many steps are left to the end of the range on the side of a direction. -/
def room (c : Counter) (direction : Bool) : ℕ := if direction then 3 - c.state else c.state

theorem room_le (c : Counter) (d : Bool) : c.room d ≤ 3 := by
  have hle := c.state_le
  unfold room
  split <;> omega

theorem predict_eq_iff (c : Counter) (d : Bool) : c.predict = d ↔ c.room d ≤ 1 := by
  unfold predict room
  cases d with
  | true =>
    rw [if_pos rfl, decide_eq_true_iff]
    omega
  | false =>
    rw [if_neg Bool.false_ne_true, decide_eq_false_iff_not]
    omega

theorem room_update_same (c : Counter) (d : Bool) : (c.update d).room d = c.room d - 1 := by
  unfold update room
  cases d with
  | true =>
    simp only [if_true]
    omega
  | false => simp only [Bool.false_eq_true, if_false]

theorem room_update_opposite (c : Counter) (d : Bool) : (c.update !d).room d ≤ c.room d + 1 := by
  unfold update room
  cases d with
  | true =>
    simp only [Bool.not_true, Bool.false_eq_true, if_false, if_true]
    omega
  | false =>
    simp only [Bool.not_false, Bool.false_eq_true, if_false, if_true]
    omega

theorem room_train_replicate (c : Counter) (n : ℕ) (d : Bool) :
    (c.train (List.replicate n d)).room d = c.room d - n := by
  induction n generalizing c with
  | zero => rfl
  | succ n ih =>
    rw [List.replicate_succ, train, List.foldl_cons, ← train, ih, room_update_same]
    omega

/-! ## Mispredictions -/

/-- How many of these directions the counter does not foresee. -/
def misses (c : Counter) : List Bool → ℕ
  | [] => 0
  | d :: ds => (if c.predict = d then 0 else 1) + (c.update d).misses ds

theorem countP_mispredicted (c : Counter) (branches : List (BranchCondition × Int32)) :
    (c.resolveAll branches).1.countP (·.mispredicted) =
      c.misses (BranchCondition.directions branches) := by
  induction branches generalizing c with
  | nil => rfl
  | cons b branches ih =>
    have hfirst : (if (c.resolve b.1 b.2).1.mispredicted = true then 1 else 0) =
        if c.predict = b.1.taken b.2 then 0 else 1 := by
      rw [BranchOutcome.mispredicted, resolve]
      cases c.predict <;> cases b.1.taken b.2 <;> rfl
    rw [resolveAll, List.countP_cons, ih, hfirst, Nat.add_comm]
    rfl

theorem misses_append (c : Counter) (ds ds' : List Bool) :
    c.misses (ds ++ ds') = c.misses ds + (c.train ds).misses ds' := by
  induction ds generalizing c with
  | nil => exact (Nat.zero_add _).symm
  | cons d ds ih =>
    rw [List.cons_append, misses, misses, ih, Nat.add_assoc]
    rfl

/-- The last step to the end is foreseen already. -/
theorem misses_replicate (c : Counter) (n : ℕ) (d : Bool) :
    c.misses (List.replicate n d) = min n (c.room d - 1) := by
  induction n generalizing c with
  | zero => exact (Nat.zero_min _).symm
  | succ n ih =>
    rw [List.replicate_succ, misses, ih, room_update_same]
    -- a miss leaves at least one step, so it pays for itself in `room`
    simp only [predict_eq_iff]
    split <;> omega

theorem misses_flatten_le (c : Counter) {runs : List (List Bool)}
    (h : ∀ run ∈ runs, ∃ n d, run = List.replicate n d) :
    c.misses runs.flatten ≤ 2 * runs.length := by
  induction runs generalizing c with
  | nil => exact Nat.le_refl 0
  | cons run runs ih =>
    obtain ⟨⟨n, d, rfl⟩, hruns⟩ := List.forall_mem_cons.1 h
    have hrun := c.misses_replicate n d
    have hroom := c.room_le d
    have hrest := ih (c.train (List.replicate n d)) hruns
    rw [List.flatten_cons, misses_append, List.length_cons]
    omega

/-- Neighbours in a run are equal, so all of it is. -/
theorem eq_replicate_of_mem_runs {ds run : List Bool} (h : run ∈ ds.splitBy (· == ·)) :
    ∃ n d, run = List.replicate n d := by
  have hchain : run.IsChain (· = ·) :=
    (List.isChain_of_mem_splitBy h).imp fun _ _ hab => beq_iff_eq.1 hab
  cases run with
  | nil => exact ⟨0, true, rfl⟩
  | cons d run => exact ⟨_, d, List.isChain_eq_iff_eq_replicate.1 hchain d rfl⟩

theorem misses_le (c : Counter) (ds : List Bool) :
    c.misses ds ≤ 2 * (ds.splitBy (· == ·)).length := by
  have h := c.misses_flatten_le fun run (hrun : run ∈ ds.splitBy (· == ·)) =>
    eq_replicate_of_mem_runs hrun
  rwa [List.flatten_splitBy] at h

/-! ## Hysteresis -/

/-- Three branches that go the same way leave no room on that side. -/
theorem room_resolveAll (c : Counter) (before : List (BranchCondition × Int32))
    {run : List (BranchCondition × Int32)} {d : Bool} (hlen : 3 ≤ run.length)
    (hrun : ∀ b ∈ run, b.1.taken b.2 = d) : (c.resolveAll (before ++ run)).2.room d = 0 := by
  have hdirections : BranchCondition.directions run = List.replicate run.length d := by
    rw [BranchCondition.directions, List.eq_replicate_iff, List.length_map]
    exact ⟨rfl, List.forall_mem_map.2 hrun⟩
  have hroom := (c.train (BranchCondition.directions before)).room_le d
  rw [resolveAll_snd, BranchCondition.directions, List.map_append, train_append,
    ← BranchCondition.directions, ← BranchCondition.directions, hdirections, room_train_replicate]
  omega

/-- At the end of its range, the counter foresees that direction, and after one branch that goes the
other way it does so still. -/
theorem predict_of_room {c : Counter} {d : Bool} (h : c.room d = 0) :
    c.predict = d ∧ (c.update !d).predict = d := by
  have hback := c.room_update_opposite d
  rw [predict_eq_iff, predict_eq_iff]
  omega

end Counter

/-- From each of the four states, a list of branches is predicted as a saturating count has it: a
branch is predicted to be taken when the count of those before it is at least 2. The count stays
within 0 and 3, and at most two predictions are wrong for each run of branches that go the same way.
After three or more that do, one that goes the other way is mispredicted, but the branch after it is
predicted as if that one had not been. -/
theorem mispredictions_bounded (n : ℕ) (hn : n ≤ 3) :
    ∃ c : Counter, Counter.ofState n = .ok c ∧ ∀ branches : List (BranchCondition × Int32),
      let directions := BranchCondition.directions branches
      let outcomes := (c.resolveAll branches).1
      let final := (c.resolveAll branches).2
      ((final.state : ℤ) = Counter.saturating n directions ∧ final.state ≤ 3) ∧
        (outcomes.length = branches.length ∧
          ∀ (i : ℕ) (b : BranchCondition × Int32), branches[i]? = some b →
            outcomes[i]? = some (BranchOutcome.mk
              (decide (2 ≤ Counter.saturating n (directions.take i))) (b.1.taken b.2))) ∧
        outcomes.countP (·.mispredicted) ≤ 2 * (directions.splitBy (· == ·)).length ∧
        ∀ (run : List (BranchCondition × Int32)) (odd next : BranchCondition × Int32) (d : Bool),
          3 ≤ run.length → (∀ b ∈ run, b.1.taken b.2 = d) → odd.1.taken odd.2 = !d →
            let first := (c.resolveAll (branches ++ run)).2.resolve odd.1 odd.2
            let second := first.2.resolve next.1 next.2
            first.1.mispredicted = true ∧ second.1.predicted = first.1.predicted := by
  have hc : Counter.ofState n = .ok ⟨n, hn⟩ := by rw [Counter.ofState, dif_pos hn]
  refine ⟨⟨n, hn⟩, hc, fun branches => ?_⟩
  intro directions outcomes final
  have hfinal : final = (⟨n, hn⟩ : Counter).train directions := Counter.resolveAll_snd _ branches
  refine ⟨⟨?_, final.state_le⟩, ⟨Counter.length_resolveAll _ branches, fun i b h => ?_⟩, ?_, ?_⟩
  · rw [hfinal, Counter.state_train]
  · rw [Counter.resolveAll_getElem? _ h, Counter.predict_train]
  · exact (Counter.countP_mispredicted _ branches).trans_le (Counter.misses_le _ directions)
  · intro run odd next d hlen hrun hodd first second
    have hroom := (⟨n, hn⟩ : Counter).room_resolveAll branches hlen hrun
    obtain ⟨hpredict, hafter⟩ := Counter.predict_of_room hroom
    have hfirst : first.1 = ⟨d, !d⟩ := congrArg₂ BranchOutcome.mk hpredict hodd
    have hsecond : second.1.predicted = d := by
      rw [← hafter, ← hodd]
      rfl
    rw [hfirst, hsecond]
    exact ⟨by cases d <;> rfl, rfl⟩

/-- Three runs of three from the far end of the range are mispredicted as often as can be, twice
each. The last of them is long enough for the next branch to be one of a kind. -/
theorem mispredictions_bounded_tight :
    let up : BranchCondition × Int32 := (.always, 0)
    let down : BranchCondition × Int32 := (⟨carryFlag, false⟩, 0)
    let branches := [up, up, up, down, down, down]
    let run := [up, up, up]
    let directions := BranchCondition.directions (branches ++ run)
    (directions.splitBy (· == ·)).length = 3 ∧ ∃ c : Counter, Counter.ofState 0 = .ok c ∧
      (c.resolveAll (branches ++ run)).1.countP (·.mispredicted) = 6 ∧
        let first := (c.resolveAll (branches ++ run)).2.resolve down.1 down.2
        first.1.mispredicted = true ∧
          (first.2.resolve up.1 up.2).1.predicted = first.1.predicted := by
  intro up down branches run directions
  obtain ⟨c, hc, h⟩ := mispredictions_bounded 0 (by decide)
  obtain ⟨-, -, -, hodd⟩ := h branches
  refine ⟨by decide, c, hc, ?_, hodd run down up true (by decide) (by decide) (by decide)⟩
  obtain rfl := Except.ok.inj hc
  decide

end OutOfOrder
