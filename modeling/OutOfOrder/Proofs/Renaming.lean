import Mathlib
import OutOfOrder.Proofs.Phases
import OutOfOrder.Proofs.ReorderBuffer

/-!
# Other names for the tags

Of the tags that it meets, the core only asks which are equal and which are older. So it does not
matter what they are called, as long as a renaming is `Faithful`: it keeps distinct tags apart, and
keeps their ages. This module says what it means for each part of the core that it is the same as
another one up to the names, and that whatever is done to both leaves them so.

A tag that nobody waits for any more, or that stands in a free slot, is not looked at; it may be the
old one in both.
-/

namespace OutOfOrder

/-! ## Renamings -/

namespace TagSpace

/-- The tag is one of the space. -/
def Names (s : TagSpace) (t : Tag) : Prop := s.contains t.index = true

instance (s : TagSpace) (t : Tag) : Decidable (s.Names t) :=
  inferInstanceAs (Decidable (s.contains t.index = true))

/-- All that the core asks of the tags of its space is answered for their new names as for them. -/
structure Faithful (s : TagSpace) (f : Tag → Tag) : Prop where
  inj : ∀ {a b}, s.Names a → s.Names b → f a = f b → a = b
  older : ∀ {a b}, s.Names a → s.Names b → s.older (f a) (f b) = s.older a b

theorem Faithful.beq {s : TagSpace} {f : Tag → Tag} (hf : s.Faithful f) {a b : Tag}
    (ha : s.Names a) (hb : s.Names b) : (f a == f b) = (a == b) := by
  rw [Bool.eq_iff_iff, beq_iff_eq, beq_iff_eq]
  exact ⟨hf.inj ha hb, congrArg f⟩

end TagSpace

/-- The tag of a slot that does not wait is left alone. -/
def Operand.rename (f : Tag → Tag) (o : Operand) : Operand :=
  if o.waiting then { o with tag := f o.tag } else o

def Instruction.rename (f : Tag → Tag) (i : Instruction) : Instruction :=
  { i with tag := f i.tag, operands := i.operands.map fun _ => Operand.rename f }

/-- The tags of an instruction that the core looks at are tags of the space. -/
def Instruction.Within (s : TagSpace) (i : Instruction) : Prop :=
  s.Names i.tag ∧ ∀ slot ∈ i.operands.toList, slot.waiting = true → s.Names slot.tag

instance (s : TagSpace) (i : Instruction) : Decidable (i.Within s) :=
  inferInstanceAs (Decidable (s.Names i.tag ∧
    ∀ slot ∈ i.operands.toList, slot.waiting = true → s.Names slot.tag))

def Request.rename (f : Tag → Tag) (r : Request) : Request := { r with tag := f r.tag }

def Result.rename (f : Tag → Tag) (r : Result) : Result := { r with tag := f r.tag }

def ReorderBuffer.Entry.rename (f : Tag → Tag) (e : Entry) : Entry := { e with tag := f e.tag }

def CoreError.rename (f : Tag → Tag) : CoreError → CoreError
  | unrecognizedOpcode tag opcode => unrecognizedOpcode (f tag) opcode

def CycleReport.rename (f : Tag → Tag) (r : CycleReport) : CycleReport :=
  { r with
    broadcast := r.broadcast.map f
    retired := r.retired.map f
    issued := r.issued.map f
    dispatched := r.dispatched.map f }

/-! ## Operands -/

/-- The same slot up to the name of the tag that it waits for. -/
structure Operand.Renamed (s : TagSpace) (f : Tag → Tag) (o o' : Operand) : Prop where
  waiting : o'.waiting = o.waiting
  value : o'.value = o.value
  tag : o.waiting = true → s.Names o.tag ∧ o'.tag = f o.tag

def Operands.Renamed (s : TagSpace) (f : Tag → Tag) (x x' : Operands Operand) : Prop :=
  ∀ k, (x.get k).Renamed s f (x'.get k)

section
variable {s : TagSpace} {f : Tag → Tag}

namespace Operand

theorem renamed_rename {o : Operand} (h : o.waiting = true → s.Names o.tag) :
    o.Renamed s f (o.rename f) := by
  unfold rename
  split
  · rename_i hw
    exact ⟨rfl, rfl, fun _ => ⟨h hw, rfl⟩⟩
  · rename_i hw
    exact ⟨rfl, rfl, fun hw' => absurd hw' hw⟩

namespace Renamed

variable {o o' : Operand} (h : o.Renamed s f o')
include h

theorem waitsOn (hf : s.Faithful f) {t : Tag} (ht : s.Names t) :
    o'.waitsOn (f t) = o.waitsOn t := by
  unfold Operand.waitsOn
  rw [h.waiting]
  cases hw : o.waiting with
  | false => rfl
  | true =>
    obtain ⟨hn, htag⟩ := h.tag hw
    rw [htag, hf.beq hn ht]

theorem resolve (hf : s.Faithful f) {t : Tag} (ht : s.Names t) (v : Int32) :
    (o.resolve t v).1.Renamed s f (o'.resolve (f t) v).1 ∧
      (o'.resolve (f t) v).2 = (o.resolve t v).2 := by
  unfold Operand.resolve
  rw [h.waitsOn hf ht]
  split
  · exact ⟨⟨rfl, rfl, nofun⟩, rfl⟩
  · exact ⟨h, rfl⟩

end Renamed

end Operand

namespace Operands.Renamed

variable {x x' : Operands Operand} (h : x.Renamed s f x')
include h

theorem ready : x'.ready = x.ready := by
  have ha := (h .a).waiting
  have hb := (h .b).waiting
  have hf := (h .f).waiting
  simp only [get] at ha hb hf
  simp [Operands.ready, toList, ha, hb, hf]

theorem values : x'.values = x.values := by
  refine Operands.ext fun k => ?_
  rw [Operands.values, Operands.values, get_map, get_map]
  exact (h k).value

theorem resolve (hf : s.Faithful f) {r : Result} (ht : s.Names r.tag) :
    (x.resolve r.tag r.outcome).1.Renamed s f (x'.resolve (f r.tag) r.outcome).1 ∧
      (x'.resolve (f r.tag) r.outcome).2 = (x.resolve r.tag r.outcome).2 := by
  have hk := fun k => (h k).resolve hf ht (r.outcome.read k)
  constructor
  · intro k
    rw [Operands.resolve, Operands.resolve, get_map, get_map, get_map, get_map]
    exact (hk k).1
  · have ha := (hk .a).2
    have hb := (hk .b).2
    have hf := (hk .f).2
    simp only [get] at ha hb hf
    simp only [Operands.resolve, map, toList, List.countP_cons, ha, hb, hf]

end Operands.Renamed

/-! ## Lists that agree place by place -/

section
variable {α β : Type} {R : α → β → Prop} {l : List α} {l' : List β}

theorem getElem?_of_forall₂ (h : List.Forall₂ R l l') {n : Nat} {x : α} {x' : β}
    (hx : l[n]? = some x) (hx' : l'[n]? = some x') : R x x' := by
  obtain ⟨hn, rfl⟩ := List.getElem?_eq_some_iff.1 hx
  obtain ⟨hn', rfl⟩ := List.getElem?_eq_some_iff.1 hx'
  exact h.get hn hn'

theorem forall₂_modify (h : List.Forall₂ R l l') {g : α → α} {g' : β → β}
    (hg : ∀ x x', R x x' → R (g x) (g' x')) (n : Nat) :
    List.Forall₂ R (l.modify n g) (l'.modify n g') := by
  induction h generalizing n with
  | nil => rw [List.modify_nil, List.modify_nil]; exact .nil
  | cons hx ht ih =>
    cases n with
    | zero => exact .cons (hg _ _ hx) ht
    | succ n => exact .cons hx (ih n)

theorem forall₂_set (h : List.Forall₂ R l l') {x : α} {x' : β} (hx : R x x') (n : Nat) :
    List.Forall₂ R (l.set n x) (l'.set n x') := by
  rw [List.set_eq_modify, List.set_eq_modify]
  exact forall₂_modify h (fun _ _ _ => hx) n

theorem forall₂_zipIdx (h : List.Forall₂ R l l') (n : Nat) :
    List.Forall₂ (fun p p' => R p.1 p'.1 ∧ p'.2 = p.2) (l.zipIdx n) (l'.zipIdx n) := by
  induction h generalizing n with
  | nil => exact .nil
  | cons hx _ ih => exact .cons ⟨hx, rfl⟩ (ih (n + 1))

theorem findIdx?_of_forall₂ {p : α → Bool} {p' : β → Bool} (h : List.Forall₂ R l l')
    (hp : ∀ x x', R x x' → p' x' = p x) : l'.findIdx? p' = l.findIdx? p := by
  induction h with
  | nil => rfl
  | cons hx _ ih => rw [List.findIdx?_cons, List.findIdx?_cons, hp _ _ hx, ih]

theorem map_find?_of_forall₂ {γ : Type} {p : α → Bool} {p' : β → Bool} {g : α → γ}
    {g' : β → γ} (h : List.Forall₂ R l l')
    (hp : ∀ x x', R x x' → p' x' = p x ∧ g' x' = g x) :
    (l'.find? p').map g' = (l.find? p).map g := by
  induction h with
  | nil => rfl
  | cons hx _ ih =>
    obtain ⟨hpx, hgx⟩ := hp _ _ hx
    rw [List.find?_cons, List.find?_cons, hpx]
    split
    · exact congrArg some hgx
    · exact ih

/-- Scans that compare alike keep alike candidates. -/
theorem scan_of_forall₂ {better : α → α → Bool} {better' : β → β → Bool}
    (h : List.Forall₂ R l l')
    (hb : ∀ x x' y y', R x x' → R y y' → better' x' y' = better x y) {first : α}
    {first' : β} (hfirst : R first first') :
    R (l.foldl (fun best x => if better x best then x else best) first)
      (l'.foldl (fun best x => if better' x best then x else best) first') := by
  induction h generalizing first first' with
  | nil => exact hfirst
  | cons hx _ ih =>
    rw [List.foldl_cons, List.foldl_cons, hb _ _ _ _ hx hfirst]
    apply ih
    split
    · exact hx
    · exact hfirst

end

/-! ## The station -/

/-- The same slot of the station, where the tag of a free one does not matter. -/
structure Station.Entry.Renamed (s : TagSpace) (f : Tag → Tag) (e e' : Entry) : Prop where
  occupied : e'.occupied = e.occupied
  opcode : e'.opcode = e.opcode
  tag : e.occupied = true → s.Names e.tag ∧ e'.tag = f e.tag
  operands : e.operands.Renamed s f e'.operands

/-- The same slots, one by one. -/
structure Station.Renamed (s : TagSpace) (f : Tag → Tag) (x x' : Station) : Prop where
  tags : x.tags = s
  tags' : x'.tags = s
  occupied : x'.occupied = x.occupied
  slots : List.Forall₂ (Entry.Renamed s f) x.slots x'.slots

end

namespace Station

/-- The station without the entry in a slot. -/
def release (x : Station) (e : Entry) (n : Nat) : Station :=
  { x with slots := x.slots.set n { e with occupied := false }, occupied := x.occupied - 1 }

namespace Entry.Renamed

variable {s : TagSpace} {f : Tag → Tag} {e e' : Entry} (h : e.Renamed s f e')
include h

theorem ready : e'.ready = e.ready := by
  rw [Entry.ready, Entry.ready, h.occupied, h.operands.ready]

theorem request (ho : e.occupied = true) : e'.request = e.request.rename f := by
  rw [Entry.request, Entry.request, h.operands.values, (h.tag ho).2, h.opcode]
  rfl

theorem free : Entry.Renamed s f { e with occupied := false } { e' with occupied := false } :=
  ⟨rfl, h.opcode, nofun, h.operands⟩

theorem wake (hf : s.Faithful f) {r : Result} (ht : s.Names r.tag) :
    (e.wake r).1.Renamed s f (e'.wake (r.rename f)).1 ∧
      (e'.wake (r.rename f)).2 = (e.wake r).2 := by
  unfold Entry.wake
  rw [h.occupied]
  split
  · obtain ⟨hops, hcount⟩ := h.operands.resolve hf ht
    exact ⟨⟨rfl, h.opcode, h.tag, hops⟩, hcount⟩
  · exact ⟨h, rfl⟩

end Entry.Renamed

namespace Renamed

variable {s : TagSpace} {f : Tag → Tag} {x x' : Station} (h : x.Renamed s f x')
include h

theorem isFull : x'.isFull = x.isFull := by
  rw [Station.isFull, Station.isFull, h.occupied, capacity, capacity, h.slots.length_eq]

/-- They have the same slot free. -/
theorem findIdx?_free :
    x'.slots.findIdx? (!·.occupied) = x.slots.findIdx? (!·.occupied) :=
  findIdx?_of_forall₂ h.slots fun e e' he => by rw [he.occupied]

theorem push {i i' : Instruction}
    (hi : (Entry.ofInstruction i).Renamed s f (.ofInstruction i')) :
    (x.push i).1.Renamed s f (x'.push i').1 := by
  unfold Station.push
  rw [h.findIdx?_free]
  split
  · exact h
  · exact ⟨h.tags, h.tags', congrArg (· + 1) h.occupied, forall₂_set h.slots hi _⟩

theorem wake (hf : s.Faithful f) {r : Result} (ht : s.Names r.tag) :
    (x.wake r).1.Renamed s f (x'.wake (r.rename f)).1 ∧
      (x'.wake (r.rename f)).2 = (x.wake r).2 := by
  have hwoken : List.Forall₂ (fun p p' => p.1.Renamed s f p'.1 ∧ p'.2 = p.2)
      (x.slots.map (·.wake r)) (x'.slots.map (·.wake (r.rename f))) := by
    rw [List.forall₂_map_left_iff, List.forall₂_map_right_iff]
    exact h.slots.imp fun e e' he => he.wake hf ht
  constructor
  · refine ⟨h.tags, h.tags', h.occupied, ?_⟩
    change List.Forall₂ _ ((x.slots.map (·.wake r)).map (·.1))
      ((x'.slots.map (·.wake (r.rename f))).map (·.1))
    rw [List.forall₂_map_left_iff, List.forall₂_map_right_iff]
    exact hwoken.imp fun _ _ hp => hp.1
  · change (x'.slots.map (·.wake (r.rename f))).foldl (fun taken e => taken + e.2) 0 =
      (x.slots.map (·.wake r)).foldl (fun taken e => taken + e.2) 0
    refine (List.rel_foldl (P := (· = ·)) ?_ rfl hwoken).symm
    rintro a _ rfl p p' hp
    exact congrArg (a + ·) hp.2.symm

theorem release {e e' : Entry} (he : e.Renamed s f e') (n : Nat) :
    (x.release e n).Renamed s f (x'.release e' n) :=
  ⟨h.tags, h.tags', congrArg (· - 1) h.occupied, forall₂_set h.slots he.free n⟩

/-- The scan compares ready entries only, so it finds the same slot. -/
theorem oldestReady (hf : s.Faithful f) :
    (x.oldestReady = none ∧ x'.oldestReady = none) ∨
      ∃ e e' n, x.oldestReady = some (e, n) ∧ x'.oldestReady = some (e', n) ∧
        e.occupied = true ∧ e.Renamed s f e' := by
  have hready : List.Forall₂
      (fun p p' => p.1.ready = true ∧ p.1.Renamed s f p'.1 ∧ p'.2 = p.2)
      (x.slots.zipIdx.filter (·.1.ready)) (x'.slots.zipIdx.filter (·.1.ready)) := by
    refine (List.forall₂_and_left _ _).2 ⟨fun p hp => (List.mem_filter.1 hp).2, ?_⟩
    refine List.rel_filter (fun p p' hp => ?_) (forall₂_zipIdx h.slots 0)
    exact Bool.eq_iff_iff.1 hp.1.ready.symm
  unfold Station.oldestReady
  rw [h.tags, h.tags']
  revert hready
  generalize x.slots.zipIdx.filter (·.1.ready) = l
  generalize x'.slots.zipIdx.filter (·.1.ready) = l'
  intro hready
  cases hready with
  | nil => exact .inl ⟨rfl, rfl⟩
  | cons hfirst hrest =>
    obtain ⟨hr, he, hn⟩ := scan_of_forall₂ hrest (fun p p' q q' hp hq => by
      obtain ⟨hpn, hpt⟩ := hp.2.1.tag (Entry.occupied_of_ready hp.1)
      obtain ⟨hqn, hqt⟩ := hq.2.1.tag (Entry.occupied_of_ready hq.1)
      exact (congrArg₂ s.older hpt hqt).trans (hf.older hpn hqn)) hfirst
    exact .inr ⟨_, _, _, rfl, congrArg some (Prod.ext rfl hn), Entry.occupied_of_ready hr, he⟩

end Renamed

end Station

/-! ## The reorder buffer -/

namespace ReorderBuffer

/-- The same entry up to the name of its tag. -/
def Entry.Renamed (s : TagSpace) (f : Tag → Tag) (e e' : Entry) : Prop :=
  s.Names e.tag ∧ e' = e.rename f

/-- Buffers that hold the same entries, whatever cells these are in. -/
structure Renamed (s : TagSpace) (f : Tag → Tag) (b b' : ReorderBuffer) : Prop where
  capacity : b'.capacity = b.capacity
  entries : List.Forall₂ (Entry.Renamed s f) b.entries b'.entries

namespace Renamed

variable {s : TagSpace} {f : Tag → Tag} {b b' : ReorderBuffer} (h : b.Renamed s f b')
include h

theorem isFull : b'.isFull = b.isFull := by
  have hb := b.isFull_eq_false_iff
  rw [← h.capacity, h.entries.length_eq, ← isFull_eq_false_iff] at hb
  cases hf : b.isFull with
  | false => exact hb.1 hf
  | true => exact Bool.eq_true_of_not_eq_false fun hf' => by rw [hb.2 hf'] at hf; cases hf

theorem isEmpty : b'.isEmpty = b.isEmpty := by
  rw [Bool.eq_iff_iff, isEmpty_eq_true_iff, isEmpty_eq_true_iff, ← List.length_eq_zero_iff,
    ← List.length_eq_zero_iff, h.entries.length_eq]

theorem push (hb : b.isFull = false) (opcode : Opcode) {t : Tag} (ht : s.Names t) :
    (b.push opcode t).1.Renamed s f (b'.push opcode (f t)).1 := by
  refine ⟨by rw [capacity_push, capacity_push, h.capacity], ?_⟩
  rw [entries_push _ _ _ hb, entries_push _ _ _ (h.isFull.trans hb)]
  exact List.rel_append h.entries (.cons ⟨ht, rfl⟩ .nil)

theorem complete (hf : s.Faithful f) {r : Result} (ht : s.Names r.tag) :
    (b.complete r).1.Renamed s f (b'.complete (r.rename f)).1 := by
  have hfind : b'.entries.findIdx? (·.tag == (r.rename f).tag) =
      b.entries.findIdx? (·.tag == r.tag) := by
    refine findIdx?_of_forall₂ h.entries ?_
    rintro e _ ⟨hn, rfl⟩
    exact hf.beq hn ht
  refine ⟨by rw [capacity_complete, capacity_complete, h.capacity], ?_⟩
  rw [entries_complete, entries_complete, hfind]
  cases b.entries.findIdx? (·.tag == r.tag) with
  | none => exact h.entries
  | some i =>
    refine forall₂_modify h.entries ?_ i
    rintro e _ ⟨hn, rfl⟩
    change Entry.Renamed s f (if e.waiting then e.complete r.outcome else e)
      (if e.waiting then (e.rename f).complete r.outcome else e.rename f)
    split
    · exact ⟨hn, rfl⟩
    · exact ⟨hn, rfl⟩

theorem lookup (hf : s.Faithful f) {t : Tag} (ht : s.Names t) :
    b'.lookup (f t) = b.lookup t := by
  refine map_find?_of_forall₂ h.entries ?_
  rintro e _ ⟨hn, rfl⟩
  refine ⟨?_, rfl⟩
  change (f e.tag == f t && !e.waiting) = _
  rw [hf.beq hn ht]

theorem retire :
    (b.retire = none ∧ b'.retire = none) ∨
      ∃ e rest rest', b.retire = some (e, rest) ∧ b'.retire = some (e.rename f, rest') ∧
        s.Names e.tag ∧ rest.Renamed s f rest' := by
  have hentries := h.entries
  cases hr : b.retire with
  | none =>
    refine .inl ⟨rfl, retire_eq_none.2 fun e' he' => ?_⟩
    obtain ⟨l', hl'⟩ := List.head?_eq_some_iff.1 he'
    rw [hl', List.forall₂_cons_right_iff] at hentries
    obtain ⟨e, l, ⟨-, rfl⟩, -, hl⟩ := hentries
    exact retire_eq_none.1 hr e (by rw [hl]; rfl)
  | some p =>
    obtain ⟨e, rest⟩ := p
    obtain ⟨hl, hw, hc⟩ := retire_eq_some hr
    rw [hl, List.forall₂_cons_left_iff] at hentries
    obtain ⟨_, l', ⟨hn, rfl⟩, hrest, hl'⟩ := hentries
    cases hr' : b'.retire with
    | none =>
      have := retire_eq_none.1 hr' _ (by rw [hl']; rfl)
      exact absurd (this.symm.trans hw) Bool.noConfusion
    | some p' =>
      obtain ⟨e', rest'⟩ := p'
      obtain ⟨hl'', -, hc'⟩ := retire_eq_some hr'
      obtain ⟨rfl, rfl⟩ := List.cons.inj (hl''.symm.trans hl')
      exact .inr ⟨e, rest, rest', rfl, rfl, hn, by rw [hc, hc', h.capacity], hrest⟩

end Renamed

end ReorderBuffer

/-! ## The bus -/

structure ResultBus.Renamed (s : TagSpace) (f : Tag → Tag) (b b' : ResultBus) : Prop where
  pending : b'.pending = b.pending.map (Result.rename f)
  names : ∀ r, b.pending = some r → s.Names r.tag

theorem ResultBus.Renamed.latch {s : TagSpace} {f : Tag → Tag} {b b' : ResultBus}
    (h : b.Renamed s f b') {r : Result} (hr : s.Names r.tag) :
    (b.latch r).1.Renamed s f (b'.latch (r.rename f)).1 := by
  unfold ResultBus.latch ResultBus.isFree
  rw [h.pending]
  cases hb : b.pending with
  | none => exact ⟨rfl, fun _ he => Option.some.inj he ▸ hr⟩
  | some _ => exact h

/-! ## The committed results -/

/-- The same outcomes under the new names, and none under any other. -/
structure Committed.Renamed (s : TagSpace) (f : Tag → Tag) (c c' : Committed) : Prop where
  lookup : ∀ t, s.Names t → c'.lookup (f t) = c.lookup t
  names : ∀ t o, c.lookup t = some o → s.Names t
  only : ∀ t' o, c'.lookup t' = some o → ∃ t, s.Names t ∧ f t = t'

namespace Committed.Renamed

variable {s : TagSpace} {f : Tag → Tag} {c c' : Committed} (h : c.Renamed s f c')
include h

theorem commit (hf : s.Faithful f) {t : Tag} (ht : s.Names t) (o : Outcome) :
    (c.commit t o).Renamed s f (c'.commit (f t) o) where
  lookup := by
    intro u hu
    rw [lookup_commit, lookup_commit, h.lookup u hu]
    exact ite_congr (propext ⟨hf.inj hu ht, congrArg f⟩) (fun _ => rfl) fun _ => rfl
  names := by
    intro u p hu
    rw [lookup_commit] at hu
    split at hu
    · rename_i he
      rw [he]
      exact ht
    · exact h.names u p hu
  only := by
    intro u p hu
    rw [lookup_commit] at hu
    split at hu
    · rename_i he
      exact ⟨t, ht, he.symm⟩
    · exact h.only u p hu

theorem reclaim (hf : s.Faithful f) {t : Tag} (ht : s.Names t) :
    (c.reclaim t).Renamed s f (c'.reclaim (f t)) where
  lookup := by
    intro u hu
    rw [lookup_reclaim, lookup_reclaim, h.lookup u hu]
    exact ite_congr (propext ⟨hf.inj hu ht, congrArg f⟩) (fun _ => rfl) fun _ => rfl
  names := by
    intro u p hu
    rw [lookup_reclaim] at hu
    split at hu
    · cases hu
    · exact h.names u p hu
  only := by
    intro u p hu
    rw [lookup_reclaim] at hu
    split at hu
    · cases hu
    · exact h.only u p hu

end Committed.Renamed

end OutOfOrder
