import Mathlib
import OutOfOrder.Program
import OutOfOrder.Proofs.Age

/-!
# Selecting the oldest ready entry

The scan over the slots compares each ready entry with the best one so far. Circular age is no
order on all tags, but where it follows some ranking of the ready entries (`RankedByAge`), as it
does when their tags lie in one window (`Within.rankedByAge`), the scan ends in the first of those
with the least rank (`oldestReady_first`). Freeing that slot takes the head off the ready entries
sorted by rank (`inTurn_eq_cons`), so requests to issue, one after the other, go through them from
the least rank to the greatest (`issueTimes_eq`), and in which slots they are shows at most in the
order of those with one rank.
-/

namespace OutOfOrder

/-! ## The first of the least -/

/-- `x` has the least rank in the list, and no other one before it has. -/
def FirstLeast {α : Type} (rank : α → ℕ) (x : α) (l : List α) : Prop :=
  ∃ l1 l2, l = l1 ++ x :: l2 ∧ (∀ y ∈ l1, rank x < rank y) ∧ ∀ y ∈ l2, rank x ≤ rank y

namespace FirstLeast

variable {α : Type} {rank : α → ℕ} {x y z : α} {l : List α}

theorem rank_le (h : FirstLeast rank x l) (hy : y ∈ l) : rank x ≤ rank y := by
  obtain ⟨l1, l2, rfl, h1, h2⟩ := h
  rcases List.mem_append.1 hy with hy | hy
  · exact (h1 y hy).le
  · rcases List.mem_cons.1 hy with rfl | hy
    · exact le_rfl
    · exact h2 y hy

theorem cons_of_lt (h : FirstLeast rank x l) (hy : rank x < rank y) :
    FirstLeast rank x (y :: l) := by
  obtain ⟨l1, l2, rfl, h1, h2⟩ := h
  exact ⟨y :: l1, l2, rfl, List.forall_mem_cons.2 ⟨hy, h1⟩, h2⟩

/-- One that is no better than the first changes nothing when it stands behind it. -/
theorem cons_cons (h : FirstLeast rank x (z :: l)) (hy : rank z ≤ rank y) :
    FirstLeast rank x (z :: y :: l) := by
  obtain ⟨l1, l2, hl, h1, h2⟩ := h
  cases l1 with
  | nil =>
    obtain ⟨rfl, rfl⟩ := List.cons.inj hl
    exact ⟨[], y :: l, rfl, nofun, List.forall_mem_cons.2 ⟨hy, h2⟩⟩
  | cons w l1 =>
    obtain ⟨rfl, rfl⟩ := List.cons.inj hl
    obtain ⟨hz, h1⟩ := List.forall_mem_cons.1 h1
    exact ⟨z :: y :: l1, l2, rfl,
      List.forall_mem_cons.2 ⟨hz, List.forall_mem_cons.2 ⟨by omega, h1⟩⟩, h2⟩

/-- A scan that goes over to what has a lower rank ends there. -/
theorem scan (rank : α → ℕ) (better : α → α → Bool) :
    ∀ (l : List α) (first : α),
      (∀ x ∈ first :: l, ∀ y ∈ first :: l, better x y = true ↔ rank x < rank y) →
      FirstLeast rank (l.foldl (fun best x => if better x best then x else best) first)
        (first :: l)
  | [], first, _ => ⟨[], [], rfl, nofun, nofun⟩
  | y :: l, first, h => by
    rw [List.foldl_cons]
    have hy := h y (by simp) first (by simp)
    split
    · next hb =>
      have ih := scan rank better l y fun a ha b hb =>
        h a (List.mem_cons_of_mem _ ha) b (List.mem_cons_of_mem _ hb)
      exact ih.cons_of_lt ((ih.rank_le List.mem_cons_self).trans_lt (hy.1 hb))
    · next hb =>
      have hsub : first :: l ⊆ first :: y :: l :=
        List.cons_subset_cons _ (List.subset_cons_self _ _)
      have ih := scan rank better l first fun a ha b hb => h a (hsub ha) b (hsub hb)
      exact ih.cons_cons (not_lt.1 (hb ∘ hy.2))

/-- Taking out the first of the least again and again sorts a list, and keeps the order of
equals. -/
theorem insertionSort_eq_cons (rank : α → ℕ) {l1 l2 : List α} (h1 : ∀ y ∈ l1, rank x < rank y)
    (h2 : ∀ y ∈ l2, rank x ≤ rank y) :
    (l1 ++ x :: l2).insertionSort (rank · ≤ rank ·) =
      x :: (l1 ++ l2).insertionSort (rank · ≤ rank ·) := by
  induction l1 with
  | nil => exact List.insertionSort_cons_of_forall_rel _ h2
  | cons y l1 ih =>
    obtain ⟨hy, h1⟩ := List.forall_mem_cons.1 h1
    rw [List.cons_append, List.cons_append, List.insertionSort_cons, List.insertionSort_cons,
      ih h1]
    exact List.orderedInsert_of_not_le _ _ (not_le.2 hy)

end FirstLeast

namespace Station

/-- The ready entries by rank, and by slot where the rank is the same. -/
def inTurn (s : Station) (rank : Entry → ℕ) : List Entry :=
  (s.slots.filter (·.ready)).insertionSort (rank · ≤ rank ·)

theorem inTurn_sorted (s : Station) (rank : Entry → ℕ) :
    (s.inTurn rank).Pairwise (rank · ≤ rank ·) := List.pairwise_insertionSort _ _

/-- Of two ready entries the older one has the lower rank. -/
def RankedByAge (s : Station) (rank : Entry → ℕ) : Prop :=
  ∀ x ∈ s.slots, x.ready = true → ∀ y ∈ s.slots, y.ready = true →
    (s.tags.older x.tag y.tag = true ↔ rank x < rank y)

section
variable {s : Station} {rank : Entry → ℕ} (hrank : s.RankedByAge rank)
include hrank

/-- The entry that is found is the first of the least. -/
theorem oldestReady_first {e : Entry} {n : ℕ} (h : s.oldestReady = some (e, n)) :
    FirstLeast (fun p : Entry × ℕ => rank p.1) (e, n) (s.slots.zipIdx.filter (·.1.ready)) := by
  have hready : ∀ {p : Entry × ℕ}, p ∈ s.slots.zipIdx.filter (·.1.ready) →
      p.1 ∈ s.slots ∧ p.1.ready = true := by
    intro p hp
    rw [List.mem_filter, List.mem_zipIdx_iff_getElem?] at hp
    exact ⟨List.mem_of_getElem? hp.1, hp.2⟩
  have holder : ∀ p ∈ s.slots.zipIdx.filter (·.1.ready),
      ∀ q ∈ s.slots.zipIdx.filter (·.1.ready),
        (s.tags.older p.1.tag q.1.tag = true ↔ rank p.1 < rank q.1) := fun p hp q hq =>
    hrank p.1 (hready hp).1 (hready hp).2 q.1 (hready hq).1 (hready hq).2
  unfold oldestReady at h
  split at h
  · cases h
  · rename_i first rest hl
    rw [hl] at holder ⊢
    rw [← Option.some.inj h]
    exact FirstLeast.scan (fun p : Entry × ℕ => rank p.1)
      (fun p q : Entry × ℕ => s.tags.older p.1.tag q.1.tag) rest first holder

/-- No ready entry has a lower rank, and none in a lower slot has the same. -/
theorem oldestReady_rank {e : Entry} {n : ℕ} (h : s.oldestReady = some (e, n)) {m : ℕ}
    {x : Entry} (hm : s.slots[m]? = some x) (hx : x.ready = true) :
    rank e ≤ rank x ∧ (m < n → rank e < rank x) := by
  have hxm : (x, m) ∈ s.slots.zipIdx.filter (·.1.ready) :=
    List.mem_filter.2 ⟨List.mem_zipIdx_iff_getElem?.2 hm, hx⟩
  have hslots : (s.slots.zipIdx.filter (·.1.ready)).Pairwise (·.2 < ·.2) := by
    refine List.Pairwise.filter _ ((List.pairwise_map (R := (· < ·))).1 ?_)
    rw [List.zipIdx_map_snd]
    exact List.pairwise_lt_range'
  have hfirst := oldestReady_first hrank h
  refine ⟨hfirst.rank_le hxm, fun hlt => ?_⟩
  -- what is in a lower slot stands before it in the scan
  obtain ⟨l1, l2, hl, h1, -⟩ := hfirst
  rw [hl] at hxm hslots
  rcases List.mem_append.1 hxm with hx | hx
  · exact h1 _ hx
  · rcases List.mem_cons.1 hx with hx | hx
    · have := congrArg Prod.snd hx
      omega
    · have := (List.pairwise_cons.1 (List.pairwise_append.1 hslots).2.1).1 _ hx
      omega

theorem inTurn_eq_cons {e : Entry} {n : ℕ} (h : s.oldestReady = some (e, n)) {s' : Station}
    (hs' : s'.slots = s.slots.set n { e with occupied := false }) :
    s.inTurn rank = e :: s'.inTurn rank := by
  obtain ⟨hr, hn, he⟩ := oldestReady_mem h
  have hslots : s.slots = s.slots.take n ++ e :: s.slots.drop (n + 1) := by
    rw [← he, List.getElem_cons_drop, List.take_append_drop]
  have hbefore : ∀ y ∈ (s.slots.take n).filter (·.ready), rank e < rank y := by
    intro y hy
    obtain ⟨hy, hyr⟩ := List.mem_filter.1 hy
    obtain ⟨m, hm⟩ := List.mem_iff_getElem?.1 hy
    rw [List.getElem?_take] at hm
    split at hm
    · next hlt => exact (oldestReady_rank hrank h hm hyr).2 hlt
    · cases hm
  have hafter : ∀ y ∈ (s.slots.drop (n + 1)).filter (·.ready), rank e ≤ rank y := by
    intro y hy
    obtain ⟨hy, hyr⟩ := List.mem_filter.1 hy
    obtain ⟨m, hm⟩ := List.mem_iff_getElem?.1 (List.mem_of_mem_drop hy)
    exact (oldestReady_rank hrank h hm hyr).1
  have hfree : ({ e with occupied := false } : Entry).ready = false := rfl
  rw [inTurn, inTurn, hs', List.set_eq_take_append_cons_drop, if_pos hn]
  conv => lhs; rw [hslots]
  rw [List.filter_append, List.filter_append, List.filter_cons_of_pos hr,
    List.filter_cons_of_neg (by rw [hfree]; nofun)]
  exact FirstLeast.insertionSort_eq_cons rank hbefore hafter

/-- What is ready after an issue was ready before. -/
theorem RankedByAge.issue {r : Request} {s' : Station} (h : s.issue = some (r, s')) :
    s'.RankedByAge rank := by
  obtain ⟨e, n, -, -, rfl⟩ := issue_eq_some_iff.1 h
  have hold : ∀ x ∈ s.slots.set n { e with occupied := false }, x.ready = true → x ∈ s.slots := by
    intro x hx hr
    rcases List.mem_or_eq_of_mem_set hx with hx | rfl
    · exact hx
    · cases hr
  intro x hx hrx y hy hry
  exact hrank x (hold x hx hrx) hrx y (hold y hy hry) hry

end

/-! ## Issuing again and again -/

/-- What so many requests to issue are answered, one after the other. -/
def issueTimes : Station → ℕ → List (Option Request)
  | _, 0 => []
  | s, n + 1 =>
    match s.issue with
    | some (request, rest) => some request :: rest.issueTimes n
    | none => none :: s.issueTimes n

/-- The ready entries are issued in turn, and then nothing is. -/
theorem issueTimes_eq {rank : Entry → ℕ} (n : ℕ) {s : Station} (hrank : s.RankedByAge rank) :
    s.issueTimes n = (List.range n).map fun i => (s.inTurn rank)[i]?.map (·.request) := by
  induction n generalizing s with
  | zero => rfl
  | succ n ih =>
    rw [List.range_succ_eq_map, List.map_cons, List.map_map, issueTimes]
    cases h : s.issue with
    | none =>
      have hnone : s.inTurn rank = [] := by
        have hready := issue_eq_none.1 h
        have : s.slots.filter (·.ready) = [] := List.filter_eq_nil_iff.2 fun e he hr => by
          have := hready e (mem_live.2 ⟨he, Entry.occupied_of_ready hr⟩)
          rw [hr] at this
          cases this
        rw [inTurn, this, List.insertionSort_nil]
      dsimp only
      rw [ih hrank, hnone]
      rfl
    | some p =>
      obtain ⟨request, rest⟩ := p
      obtain ⟨e, m, ho, rfl, hrest⟩ := issue_eq_some_iff.1 h
      dsimp only
      rw [ih (RankedByAge.issue hrank h), inTurn_eq_cons hrank ho (congrArg slots hrest)]
      rfl

/-- What may be issued, in slot order. -/
def candidates (s : Station) : List Request := (s.slots.filter (·.ready)).map (·.request)

theorem mem_candidates {s : Station} {r : Request} :
    r ∈ s.candidates ↔ ∃ e ∈ s.slots, e.ready = true ∧ e.request = r := by
  simp only [candidates, List.mem_map, List.mem_filter, and_assoc]

/-- The tags of all that may be issued lie in the window that begins at the base. -/
def Within (s : Station) (base : Tag) : Prop :=
  ∀ r ∈ s.candidates, s.tags.distance base r.tag < s.tags.window

instance (s : Station) (base : Tag) : Decidable (s.Within base) :=
  inferInstanceAs (Decidable (∀ r ∈ s.candidates, s.tags.distance base r.tag < s.tags.window))

theorem Within.rankedByAge {s : Station} {base : Tag} (h : s.Within base) :
    s.RankedByAge fun e => s.tags.distance base e.tag := by
  have hnear : ∀ e ∈ s.slots, e.ready = true → s.tags.distance base e.tag < s.tags.window :=
    fun e he hr => h e.request (mem_candidates.2 ⟨e, he, hr, rfl⟩)
  exact fun x hx hrx y hy hry => s.tags.older_iff_distance_lt (hnear x hx hrx) (hnear y hy hry)

/-- What may be issued is issued in the order of its distance from the base, and then nothing. -/
theorem issueTimes_of_within {s : Station} {base : Tag} (hw : s.Within base) :
    ∃ order : List Request, order.Perm s.candidates ∧
      order.Pairwise (s.tags.distance base ·.tag ≤ s.tags.distance base ·.tag) ∧
      ∀ n, s.issueTimes n = (List.range n).map (order[·]?) := by
  refine ⟨(s.inTurn fun e => s.tags.distance base e.tag).map (·.request),
    (List.perm_insertionSort _ _).map _, List.pairwise_map.2 ?_, fun n => ?_⟩
  · exact s.inTurn_sorted fun e => s.tags.distance base e.tag
  · rw [issueTimes_eq n hw.rankedByAge]
    exact List.map_congr_left fun i _ => List.getElem?_map.symm

/-- Two lists of the same, each in order of rank, have the same ranks, and are the same where no
two ranks are. -/
theorem eq_of_perm_of_ranked {α : Type} (rank : α → ℕ) {l m : List α} (hp : l.Perm m)
    (hl : l.Pairwise (rank · ≤ rank ·)) (hm : m.Pairwise (rank · ≤ rank ·)) :
    l.map rank = m.map rank ∧ ((m.map rank).Nodup → l = m) := by
  constructor
  · refine (hp.map rank).eq_of_pairwise (fun _ _ _ _ => le_antisymm) ?_ ?_
    · exact List.pairwise_map.2 hl
    · exact List.pairwise_map.2 hm
  · intro hd
    refine hp.eq_of_pairwise (fun x y hx hy hxy hyx => ?_) hl hm
    exact List.inj_on_of_nodup_map hd (hp.subset hx) hy (le_antisymm hxy hyx)

/-- Stations that have the same to issue issue it in the same order of distances, in whatever slots
it is, and so in the same order altogether where no two distances are the same. -/
theorem issueTimes_of_perm {s s' : Station} {base : Tag} (hw : s.Within base)
    (htags : s'.tags = s.tags) (hp : s'.candidates.Perm s.candidates) (n : ℕ) :
    let away (r : Request) := s.tags.distance base r.tag
    (s'.issueTimes n).map (·.map away) = (s.issueTimes n).map (·.map away) ∧
      ((s.candidates.map away).Nodup → s'.issueTimes n = s.issueTimes n) := by
  intro away
  have hw' : s'.Within base := fun r hr => htags ▸ hw r (hp.subset hr)
  obtain ⟨order, hperm, hsorted, hissue⟩ := issueTimes_of_within hw
  obtain ⟨order', hperm', hsorted', hissue'⟩ := issueTimes_of_within hw'
  rw [htags] at hsorted'
  obtain ⟨haway, heq⟩ := eq_of_perm_of_ranked away (hperm'.trans (hp.trans hperm.symm))
    hsorted' hsorted
  rw [hissue, hissue']
  constructor
  · rw [List.map_map, List.map_map]
    refine List.map_congr_left fun i _ => ?_
    simp only [Function.comp_apply, ← List.getElem?_map, haway]
  · intro hd
    rw [heq (((hperm.map away).nodup_iff).2 hd)]

theorem Entry.ready_iff_resolved {e : Entry} :
    e.ready = true ↔ e.occupied = true ∧ ∀ k, (e.operands.get k).waiting = false := by
  cases ho : e.occupied with
  | false => simp [ready, ho]
  | true => rw [ready_iff ho]; simp only [true_and]

/-- The entry that is shown is one that is ready, and it is this one that is issued; no other slot
is changed. Where the tags of all ready entries lie in one window, it is the nearest to its
beginning, in the lowest of the slots that are as near. So, if nothing else happens, what is ready
is issued in this order, in whatever slots it is. -/
theorem oldest_ready_selected (s : Station) :
    (s.peek.isSome = true ↔
        ∃ e ∈ s.slots, e.occupied = true ∧ ∀ k, (e.operands.get k).waiting = false) ∧
      (s.peek = none → s.issue = none) ∧
      (∀ e, s.peek = some e →
        ∃ n : ℕ, s.slots[n]? = some e ∧ e.occupied = true ∧
          (∀ k, (e.operands.get k).waiting = false) ∧
          s.issue = some (⟨e.tag, e.opcode, e.operands.map fun _ slot => slot.value⟩,
            { s with
              slots := s.slots.set n { e with occupied := false }
              occupied := s.occupied - 1 }) ∧
          ∀ base, s.Within base → ∀ (m : ℕ) (x : Entry), s.slots[m]? = some x → x.ready = true →
            s.tags.distance base e.tag ≤ s.tags.distance base x.tag ∧
              (m < n → s.tags.distance base e.tag < s.tags.distance base x.tag)) ∧
      ∀ base, s.Within base →
        let away (r : Request) := s.tags.distance base r.tag
        ∃ order : List Request, order.Perm s.candidates ∧ order.Pairwise (away · ≤ away ·) ∧
          (∀ n, s.issueTimes n = (List.range n).map (order[·]?)) ∧
          ∀ s' : Station, s'.tags = s.tags → s'.candidates.Perm s.candidates →
            ∀ n, (s'.issueTimes n).map (·.map away) = (s.issueTimes n).map (·.map away) ∧
              ((s.candidates.map away).Nodup → s'.issueTimes n = s.issueTimes n) := by
  refine ⟨?_, fun h => ?_, fun e h => ?_, fun base hw => ?_⟩
  · rw [peek, Option.isSome_map, ← Option.ne_none_iff_isSome, Ne, oldestReady_eq_none]
    simp only [← Entry.ready_iff_resolved, not_forall, Bool.not_eq_false, mem_live, exists_prop,
      and_assoc]
    exact exists_congr fun e => and_congr_right fun _ =>
      and_iff_right_of_imp Entry.occupied_of_ready
  · rw [peek, Option.map_eq_none_iff] at h
    rw [issue, h]
    rfl
  · rw [peek, Option.map_eq_some_iff] at h
    obtain ⟨⟨e, n⟩, ho, rfl⟩ := h
    obtain ⟨hr, hn, he⟩ := oldestReady_mem ho
    obtain ⟨hocc, hall⟩ := Entry.ready_iff_resolved.1 hr
    refine ⟨n, List.getElem?_eq_some_iff.2 ⟨hn, he⟩, hocc, hall, ?_, ?_⟩
    · rw [issue, ho]
      rfl
    · intro base hw m x hm hx
      exact oldestReady_rank hw.rankedByAge ho hm hx
  · intro away
    obtain ⟨order, hp, hsorted, hissue⟩ := issueTimes_of_within hw
    exact ⟨order, hp, hsorted, hissue, fun s' htags hp' n => issueTimes_of_perm hw htags hp' n⟩

/-- Tags 14, 15, 0 and 1 in a space of sixteen follow each other. They are issued in this order
from two stations that hold them in other slots, while the older 13 waits. -/
theorem oldest_ready_selected_lap :
    let e n a := Entry.ofInstruction (Instruction.of (.alu .add) n a (.ready 2) (.ready 0))
    let s : Station := ⟨⟨4, by decide, by decide⟩, [e 1 (.ready 1), e 0 (.ready 1),
      e 13 (.waitingOn ⟨1⟩), e 15 (.ready 1), e 14 (.ready 1)], 5⟩
    let s' : Station := ⟨⟨4, by decide, by decide⟩, [e 14 (.ready 1), e 13 (.waitingOn ⟨1⟩),
      e 1 (.ready 1), default, e 15 (.ready 1), e 0 (.ready 1)], 5⟩
    s.Within ⟨14⟩ ∧ s'.candidates.Perm s.candidates ∧
      (s.issueTimes 5).map (·.map (·.tag)) = [some ⟨14⟩, some ⟨15⟩, some ⟨0⟩, some ⟨1⟩, none] ∧
      s'.issueTimes 5 = s.issueTimes 5 := by
  intro e s s'
  have hw : s.Within ⟨14⟩ := by decide +kernel
  have hp : s'.candidates.Perm s.candidates := by decide +kernel
  obtain ⟨-, -, -, h⟩ := oldest_ready_selected s
  obtain ⟨order, -, -, -, hsame⟩ := h ⟨14⟩ hw
  exact ⟨hw, hp, by decide +kernel, (hsame s' rfl hp 5).2 (by decide +kernel)⟩

end Station

end OutOfOrder
