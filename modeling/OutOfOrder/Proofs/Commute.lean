import Mathlib
import OutOfOrder.Proofs.Awaited
import OutOfOrder.Proofs.InFlight

/-!
# Dispatch commutes with the phases before it

An instruction may be dispatched just before a result is broadcast, or just after, and just before
the oldest entry retires, or just after. The value of an operand then comes to it by another way:
a broadcast wakes its slot, or dispatch reads it from the buffer or from the committed results. The
cores that result are the same (`Core.Agrees`), up to which of the three ways was counted.

Two facts carry this. Station, buffer and committed results each take the two operations in either
order (`Station.wake_push`, `ReorderBuffer.complete_push`, `ReorderBuffer.retire_push`,
`Committed.reclaim_commit`), where tags differ. And what dispatch reads for a tag is the outcome of
its latest holder (`History.Located.supply?_eq`), which neither phase changes but for the result
that is broadcast.
-/

namespace OutOfOrder

/-! ## Committed results -/

namespace Committed

/-- The tags stand in increasing order. -/
def Sorted (l : List (Tag × Outcome)) : Prop := l.Pairwise (·.1.index < ·.1.index)

variable {t u : Tag} {o : Outcome} {l : List (Tag × Outcome)}

theorem mem_insert {x : Tag × Outcome} (h : x ∈ insert t o l) : x = (t, o) ∨ x ∈ l := by
  induction l with
  | nil => simpa [insert] using h
  | cons y l ih =>
    rw [insert] at h
    split at h
    · simpa using h
    · split at h
      · rcases List.mem_cons.1 h with h | h
        · exact .inl h
        · exact .inr (List.mem_cons_of_mem _ h)
      · rcases List.mem_cons.1 h with rfl | h
        · exact .inr List.mem_cons_self
        · exact (ih h).imp_right (List.mem_cons_of_mem _)

theorem Sorted.insert (h : Sorted l) : Sorted (Committed.insert t o l) := by
  induction l with
  | nil => exact List.pairwise_singleton _ _
  | cons y l ih =>
    obtain ⟨hy, hl⟩ := List.pairwise_cons.1 h
    rw [Committed.insert]
    split
    · rename_i hlt
      refine List.pairwise_cons.2 ⟨fun x hx => ?_, h⟩
      rcases List.mem_cons.1 hx with rfl | hx
      · exact hlt
      · exact Nat.lt_trans hlt (hy x hx)
    · split
      · rename_i ht
        exact List.pairwise_cons.2 ⟨fun x hx => ht ▸ hy x hx, hl⟩
      · rename_i hlt ht
        refine List.pairwise_cons.2 ⟨fun x hx => ?_, ih hl⟩
        rcases mem_insert hx with rfl | hx
        · have : t.index ≠ y.1.index := fun hi => ht (Tag.index_inj.1 hi)
          dsimp only at hlt ⊢
          omega
        · exact hy x hx

theorem insert_of_lt (h : ∀ x ∈ l, t.index < x.1.index) : insert t o l = (t, o) :: l := by
  cases l with
  | nil => rfl
  | cons y l => rw [insert, if_pos (h y List.mem_cons_self)]

/-- What is forgotten under one tag is not what is put in under another. -/
theorem filter_insert (hs : Sorted l) (ht : t ≠ u) :
    (insert t o l).filter (·.1 != u) = insert t o (l.filter (·.1 != u)) := by
  have hkeep : ∀ rest : List (Tag × Outcome),
      ((t, o) :: rest).filter (·.1 != u) = (t, o) :: rest.filter (·.1 != u) := fun rest =>
    List.filter_cons_of_pos (by simpa using ht)
  induction l with
  | nil => exact hkeep []
  | cons y l ih =>
    obtain ⟨hy, hl⟩ := List.pairwise_cons.1 hs
    by_cases hu : y.1 = u
    · -- the pair that is forgotten may be the one that tells where `t` goes
      have hdrop : (y :: l).filter (·.1 != u) = l.filter (·.1 != u) :=
        List.filter_cons_of_neg (by simpa using hu)
      rw [hdrop, insert]
      split
      · rename_i hlt
        rw [hkeep, hdrop, insert_of_lt]
        intro x hx
        exact Nat.lt_trans hlt (hy x (List.mem_filter.1 hx).1)
      · rw [if_neg (hu ▸ ht), ← ih hl]
        exact List.filter_cons_of_neg (by simpa using hu)
    · have hstay : ∀ rest, (y :: rest).filter (·.1 != u) = y :: rest.filter (·.1 != u) :=
        fun rest => List.filter_cons_of_pos (by simpa using hu)
      rw [hstay, insert, insert]
      split
      · rw [hkeep, hstay]
      · split
        · rw [hkeep]
        · exact (hstay _).trans (congrArg _ (ih hl))

theorem reclaim_commit {c : Committed} (hs : Sorted c.results) (ht : t ≠ u) :
    (c.commit t o).reclaim u = (c.reclaim u).commit t o :=
  congrArg Committed.mk (filter_insert hs ht)

end Committed

/-- The committed results stay in order, whatever the core is fed. -/
theorem History.kept_sorted :
    Kept (fun _ => True) (fun h => Committed.Sorted h.core.committed.results) where
  closed := fun _ => trivial
  frame := fun _ _ _ hs => hs
  broadcast := fun _ _ hs => hs
  leave := fun _ _ hs => hs.insert
  send := fun _ _ _ _ _ hs => hs
  install := fun _ _ _ _ hs => List.Pairwise.filter _ hs

/-! ## The station -/

namespace Station

@[simp] theorem isFull_wake (s : Station) (r : Result) : (s.wake r).1.isFull = s.isFull := by
  simp [isFull, capacity, wake]

/-- A new entry takes the result in its slot, or has taken it before it came. -/
theorem wake_push (s : Station) (i : Instruction) (r : Result) :
    ((s.push i).1.wake r).1 =
      ((s.wake r).1.push { i with operands := (i.operands.resolve r.tag r.outcome).1 }).1 := by
  have hfree : (s.wake r).1.slots.findIdx? (!·.occupied) = s.slots.findIdx? (!·.occupied) := by
    simp only [wake, List.map_map, List.findIdx?_map]
    exact congrArg (fun p => s.slots.findIdx? p) (funext fun e => by simp)
  unfold push
  rw [hfree]
  cases s.slots.findIdx? (!·.occupied) with
  | none => rfl
  | some n => simp [wake, List.map_set, Entry.wake, Entry.ofInstruction]

end Station

/-! ## The buffer -/

namespace ReorderBuffer

variable {b b' : ReorderBuffer} {opcode : Opcode} {tag : Tag}

theorem entry_push (hf : b.isFull = false) {i : Nat} (hi : i < b.length) :
    (b.push opcode tag).1.entry i = b.entry i := by
  have hlt : i < b.entries.length := b.length_entries.symm ▸ hi
  have hlt' : i < (b.push opcode tag).1.entries.length := by
    rw [length_entries, length_push b opcode tag hf]
    omega
  rw [entry_eq_getElem _ hlt, entry_eq_getElem _ hlt']
  simp only [entries_push b opcode tag hf]
  exact List.getElem_append_left hlt

@[simp] theorem isFull_set (b : ReorderBuffer) (i : Nat) (e : Entry) :
    (b.set i e).isFull = b.isFull := by
  simp [isFull, advance, set, write]

@[simp] theorem isFull_complete (b : ReorderBuffer) (r : Result) :
    (b.complete r).1.isFull = b.isFull := by
  rw [complete_eq]
  split
  · rfl
  · split
    · exact isFull_set _ _ _
    · rfl

/-- A buffer that is not full takes the entry in the cell at its head. -/
theorem push_eq (hf : b.isFull = false) (opcode : Opcode) (tag : Tag) :
    (b.push opcode tag).1.cells = b.cells.set b.head (.pending opcode tag) b.head_lt ∧
      (b.push opcode tag).1.head = b.advance b.head ∧ (b.push opcode tag).1.tail = b.tail := by
  simp [push, hf]

/-- The cell of an entry is not the one that the next entry takes. -/
theorem set_push (hf : b.isFull = false) {i : Nat} (hi : i < b.length) (e : Entry) :
    (b.push opcode tag).1.set i e = ((b.set i e).push opcode tag).1 := by
  have hne : b.head ≠ b.position i := by
    rw [← b.position_length]
    intro h
    have := b.position_inj b.length_lt (b.lt_size_of_lt_length hi) h
    omega
  obtain ⟨hcells, hhead, htail⟩ := push_eq hf opcode tag
  obtain ⟨hcells', hhead', htail'⟩ := push_eq ((b.isFull_set i e).trans hf) opcode tag
  apply ext
  · rw [hcells']
    simp only [set, write, cell, position, hcells, htail, Array.size_set]
    exact Array.set_comm _ _ hne
  · rw [hhead']
    simp only [set, write, advance, hhead, Array.size_set]
  · rw [htail']
    exact htail

theorem complete_push (hf : b.isFull = false) {r : Result} (ht : tag ≠ r.tag) :
    ((b.push opcode tag).1.complete r).1 = ((b.complete r).1.push opcode tag).1 := by
  have hfind : (b.push opcode tag).1.entries.findIdx? (·.tag == r.tag) =
      b.entries.findIdx? (·.tag == r.tag) := by
    rw [entries_push b opcode tag hf, List.findIdx?_append]
    simp [Entry.pending, ht]
  rw [complete_eq, complete_eq, hfind]
  cases h : b.entries.findIdx? (·.tag == r.tag) with
  | none => rfl
  | some i =>
    obtain ⟨hi, -⟩ := List.findIdx?_eq_some_iff_getElem.1 h
    rw [length_entries] at hi
    dsimp only
    rw [entry_push hf hi]
    cases hw : (b.entry i).waiting with
    | false => rfl
    | true => exact set_push hf hi _

theorem retire_eq_some_iff {e : Entry} :
    b.retire = some (e, b') ↔ b.entries.head? = some e ∧ e.waiting = false ∧
      b' = { b with tail := b.advance b.tail, tail_lt := b.advance_lt b.tail } := by
  rw [← oldest?_eq, retire]
  cases b.oldest? with
  | none => simp
  | some x =>
    cases hw : x.waiting with
    | true =>
      simp only [hw, if_true, Option.some.injEq, reduceCtorEq, false_iff]
      rintro ⟨rfl, hc, -⟩
      rw [hw] at hc
      cases hc
    | false =>
      simp only [hw, Bool.false_eq_true, if_false, Option.some.injEq, Prod.mk.injEq]
      constructor
      · rintro ⟨rfl, rfl⟩
        exact ⟨rfl, hw, rfl⟩
      · rintro ⟨rfl, -, rfl⟩
        exact ⟨rfl, rfl⟩

theorem isFull_retire (hf : b.isFull = false) {e : Entry} (h : b.retire = some (e, b')) :
    b'.isFull = false := by
  obtain ⟨hl, -, hc⟩ := retire_eq_some h
  rw [isFull_eq_false_iff] at hf ⊢
  rw [hl, List.length_cons] at hf
  omega

/-- The oldest entry leaves, whether or not another enters first. -/
theorem retire_push (hf : b.isFull = false) {e : Entry} (h : b.retire = some (e, b')) :
    (b.push opcode tag).1.retire = some (e, (b'.push opcode tag).1) := by
  obtain ⟨hcells', hhead', htail'⟩ := push_eq (isFull_retire hf h) opcode tag
  obtain ⟨hcells, hhead, htail⟩ := push_eq hf opcode tag
  obtain ⟨ho, hw, rfl⟩ := retire_eq_some_iff.1 h
  refine retire_eq_some_iff.2 ⟨?_, hw, ext ?_ ?_ ?_⟩
  · rw [entries_push b opcode tag hf, List.head?_append, ho]
    rfl
  · rw [hcells']
    exact hcells.symm
  · rw [hhead']
    exact hhead.symm
  · rw [htail']
    simp only [advance, htail, hcells, Array.size_set]

/-- A result completes the entry that waits for it, and no other. -/
theorem lookup_complete (hd : (b.entries.map (·.tag)).Nodup) {r : Result}
    (hr : r.tag ∈ b.waitingTags) (t : Tag) :
    (b.complete r).1.lookup t = if t = r.tag then some r.outcome else b.lookup t := by
  obtain ⟨e, he, hw, ht⟩ := mem_waitingTags.1 hr
  have hentries := entries_complete_of_nodup hd r
  have htags := b.map_tag_complete r
  by_cases hm : t ∈ b.entries.map (·.tag)
  · obtain ⟨x, hx, rfl⟩ := List.mem_map.1 hm
    have hx' : (if x.tag = r.tag ∧ x.waiting = true then x.complete r.outcome else x) ∈
        (b.complete r).1.entries := hentries ▸ List.mem_map_of_mem hx
    rw [lookup_of_mem hd hx]
    split
    · rename_i hxt
      obtain rfl := List.inj_on_of_nodup_map hd hx he (hxt.trans ht.symm)
      rw [if_pos ⟨hxt, hw⟩] at hx'
      exact lookup_of_mem (htags ▸ hd) hx'
    · rename_i hxt
      rw [if_neg fun h => hxt h.1] at hx'
      exact lookup_of_mem (htags ▸ hd) hx'
  · have hne : t ≠ r.tag := by
      rintro rfl
      exact hm (List.mem_map.2 ⟨e, he, ht⟩)
    rw [if_neg hne, lookup_of_not_mem hm, lookup_of_not_mem (htags ▸ hm)]

end ReorderBuffer

/-! ## The core -/

namespace Core

/-- The same core, but that operands may have been counted as filled in another of the three
ways. -/
structure Agrees (c d : Core) : Prop where
  core : { c with stats := d.stats } = d
  stats : { c.stats with
    woken := d.stats.woken
    forwarded := d.stats.forwarded
    committed := d.stats.committed } = d.stats
  filled : c.stats.woken + c.stats.forwarded + c.stats.committed =
    d.stats.woken + d.stats.forwarded + d.stats.committed

namespace Agrees

theorem refl (c : Core) : Agrees c c := ⟨rfl, rfl, rfl⟩

/-- With as many operands accounted for, and the same ones waiting, as many were filled. -/
theorem of_accounted {c d : Core} (hcore : { c with stats := d.stats } = d)
    (hstats : { c.stats with
      woken := d.stats.woken
      forwarded := d.stats.forwarded
      committed := d.stats.committed } = d.stats)
    (h : c.accounted = d.accounted) : Agrees c d := by
  refine ⟨hcore, hstats, ?_⟩
  have hstation : c.station = d.station := congrArg (·.station) hcore
  rw [accounted, accounted, hstation] at h
  omega

end Agrees

/-- The operand that dispatch gives depends on the outcome that it finds alone. -/
theorem resolve_congr {c d : Core} {slot : Operand}
    (h : (c.supply? slot.tag).map Supply.outcome = (d.supply? slot.tag).map Supply.outcome)
    (k : Input) : (c.resolve k slot).1 = (d.resolve k slot).1 := by
  unfold resolve
  cases slot.waiting with
  | false => rfl
  | true =>
    cases hc : c.supply? slot.tag <;> cases hd : d.supply? slot.tag <;> simp_all

/-- A broadcast makes no room, and takes none. -/
theorem isFull_deliver (c : Core) :
    c.deliver.core.station.isFull = c.station.isFull ∧
      c.deliver.core.buffer.isFull = c.buffer.isFull := by
  cases hb : c.bus.pending with
  | none =>
    rw [deliver_idle hb]
    exact ⟨rfl, rfl⟩
  | some r =>
    rw [deliver_busy hb]
    exact ⟨Station.isFull_wake _ r, ReorderBuffer.isFull_complete _ r⟩

end Core

namespace History.Located

variable {config : Config} {h : History} (hl : Located config h)
include hl

theorem mem_waitingTags_of_pending {r : Result} (hb : h.core.bus.pending = some r) :
    r.tag ∈ h.core.buffer.waitingTags :=
  hl.waiting.symm.subset (List.mem_append_right _ (by simp [hb]))

/-- Nothing is found for the tag that is on the bus until its result is broadcast. -/
theorem supply?_deliver {r : Result} (hb : h.core.bus.pending = some r) :
    h.core.supply? r.tag = none ∧
      ∀ t, h.core.deliver.core.supply? t =
        if t = r.tag then some (.forwarded r.outcome) else h.core.supply? t := by
  have hr := hl.mem_waitingTags_of_pending hb
  obtain ⟨e, he, hw, ht⟩ := ReorderBuffer.mem_waitingTags.1 hr
  refine ⟨?_, fun t => ?_⟩
  · rw [Core.supply?, ← ht, ReorderBuffer.lookup_of_mem hl.distinct he, if_pos hw,
      hl.not_committed he]
    rfl
  · rw [Core.deliver_busy hb, Core.supply?]
    dsimp only
    rw [ReorderBuffer.lookup_complete hl.distinct hr]
    by_cases htag : t = r.tag
    · rw [if_pos htag, if_pos htag]
    · rw [if_neg htag, if_neg htag]
      rfl

/-- An operand takes the result that is broadcast after its dispatch, or is dispatched with it. -/
theorem resolved_deliver {r : Result} (hb : h.core.bus.pending = some r) (i : Instruction) :
    h.core.deliver.core.resolved i =
      { h.core.resolved i with
        operands := ((h.core.resolved i).operands.resolve r.tag r.outcome).1 } := by
  obtain ⟨hnone, hsupply⟩ := hl.supply?_deliver hb
  have hget : ∀ (k : Input) (slot : Operand), (h.core.deliver.core.resolve k slot).1 =
      ((h.core.resolve k slot).1.resolve r.tag (r.outcome.read k)).1 := by
    intro k slot
    unfold Core.resolve
    rw [hsupply]
    cases hw : slot.waiting with
    | false => simp [Operand.resolve, Operand.waitsOn, hw]
    | true =>
      by_cases ht : slot.tag = r.tag
      · simp [ht, hnone, Supply.outcome]
      · rw [if_neg ht]
        cases hs : h.core.supply? slot.tag with
        | none => simp [Operand.resolve, Operand.waitsOn, ht]
        | some s => simp [Operand.resolve, Operand.waitsOn, hw]
  refine congrArg (fun operands => { i with operands }) (Operands.ext fun k => ?_)
  simp [Operands.resolve, hget, Core.resolved]

/-- An instruction is installed before or after a broadcast. -/
theorem install_deliver {i : Instruction} (hi : i.tag ∉ h.core.buffer.entries.map (·.tag))
    (hs : h.core.station.isFull = false) (hf : h.core.buffer.isFull = false) :
    (h.core.install i).deliver.core.Agrees (h.core.deliver.core.install i) := by
  cases hb : h.core.bus.pending with
  | none =>
    have hb' : (h.core.install i).bus.pending = none := hb
    rw [Core.deliver_idle hb, Core.deliver_idle hb']
    exact .refl _
  | some r =>
    have hb' : (h.core.install i).bus.pending = some r := hb
    have hne : i.tag ≠ r.tag := by
      obtain ⟨e, he, -, ht⟩ := ReorderBuffer.mem_waitingTags.1 (hl.mem_waitingTags_of_pending hb)
      rintro htag
      exact hi (List.mem_map.2 ⟨e, he, ht.trans htag.symm⟩)
    have hstation := h.core.station.wake_push (h.core.resolved i) r
    have hbuffer : ((h.core.buffer.push i.opcode i.tag).1.complete r).1 =
        ((h.core.buffer.complete r).1.push i.opcode i.tag).1 := ReorderBuffer.complete_push hf hne
    rw [← hl.resolved_deliver hb] at hstation
    have hsame : ∀ stats, { (h.core.install i).deliver.core with stats } =
        { h.core.deliver.core.install i with stats } := by
      intro stats
      rw [Core.deliver_busy hb']
      simp only [Core.install]
      rw [hstation, hbuffer, Core.deliver_busy hb]
    obtain ⟨hroom, -⟩ := h.core.isFull_deliver
    have hcounted : h.core.deliver.core.station.Counted := by
      rw [Core.deliver_busy hb]
      exact Station.counted_wake hl.counted r
    refine .of_accounted (hsame _) ?_ ?_
    · rw [Core.deliver_busy hb', Core.deliver_busy hb]
      rfl
    · rw [Core.accounted_deliver, Core.accounted_install hl.counted hs,
        Core.accounted_install hcounted (hroom.trans hs), Core.accounted_deliver]

/-- An operand reads the oldest entry in the buffer, or among the committed results. -/
theorem resolved_retire {e : ReorderBuffer.Entry} {buffer : ReorderBuffer}
    (hr : h.core.buffer.retire = some (e, buffer)) (i : Instruction) :
    h.core.retire.core.resolved i = h.core.resolved i := by
  obtain ⟨hentries, -, -⟩ := ReorderBuffer.retire_eq_some hr
  have hsupply : ∀ t, (h.core.retire.core.supply? t).map Supply.outcome =
      (h.core.supply? t).map Supply.outcome := by
    intro t
    have hleave := (hl.leave hr).supply?_eq t
    have hlog : (h.leave e buffer).retired ++ (h.leave e buffer).core.buffer.entries =
        h.retired ++ h.core.buffer.entries := by
      rw [hentries]
      exact List.append_assoc ..
    rw [hlog, ← hl.supply?_eq t] at hleave
    rw [Core.retire_some hr]
    exact hleave
  refine congrArg (fun operands => { i with operands }) (Operands.ext fun k => ?_)
  rw [Operands.get_map, Operands.get_map]
  exact Core.resolve_congr (hsupply _) k

/-- An instruction is installed before or after the oldest entry retires. -/
theorem install_retire (hsorted : Committed.Sorted h.core.committed.results) {i : Instruction}
    (hi : i.tag ∉ h.core.buffer.entries.map (·.tag)) (hs : h.core.station.isFull = false)
    (hf : h.core.buffer.isFull = false) {e : ReorderBuffer.Entry} {buffer : ReorderBuffer}
    (hr : h.core.buffer.retire = some (e, buffer)) :
    (h.core.install i).retire.answer = some e ∧
      (h.core.install i).retire.core.Agrees (h.core.retire.core.install i) := by
  have hr' : (h.core.install i).buffer.retire = some (e, (buffer.push i.opcode i.tag).1) :=
    ReorderBuffer.retire_push hf hr
  have hne : e.tag ≠ i.tag := by
    obtain ⟨hentries, -, -⟩ := ReorderBuffer.retire_eq_some hr
    rintro htag
    exact hi (List.mem_map.2 ⟨e, hentries ▸ List.mem_cons_self, htag⟩)
  have hcommitted := Committed.reclaim_commit (o := e.outcome) hsorted hne
  have hsame : ∀ stats, { (h.core.install i).retire.core with stats } =
      { h.core.retire.core.install i with stats } := by
    intro stats
    rw [Core.retire_some hr']
    simp only [Core.install, hl.resolved_retire hr]
    rw [Core.retire_some hr]
    dsimp only
    rw [hcommitted]
  refine ⟨by rw [Core.retire_some hr'], .of_accounted (hsame _) ?_ ?_⟩
  · rw [Core.retire_some hr', Core.retire_some hr]
    rfl
  · have hkeep : h.core.retire.core.station = h.core.station := by rw [Core.retire_some hr]
    rw [Core.accounted_retire, Core.accounted_install hl.counted hs,
      Core.accounted_install (hkeep ▸ hl.counted) (hkeep ▸ hs), Core.accounted_retire]

end History.Located

/-- As long as equal tags are installed at least a window apart, it makes no difference whether an
instruction that can be dispatched comes just before a broadcast or just after, nor whether it comes
just before the oldest entry retires or just after, if its tag is not in flight: station, buffer,
bus and committed results are the same, and so is the number of operands filled, though not in
which way each of them was. -/
theorem dispatch_commutes {config : Config} (valid : config.validate = .ok ()) :
    ∃ core, Core.ofConfig config = .ok core ∧
      ∀ calls,
        let h := (History.start core).run calls
        let c := h.core
        Spaced core.tags.window (h.installed.map (·.tag)) →
        ∀ i : Instruction, i.opcode.decode.isSome = true →
          i.tag ∉ c.buffer.entries.map (·.tag) →
          c.station.isFull = false → c.buffer.isFull = false →
          (c.dispatch i).answer = .ok none ∧
          ((c.deliver.core.dispatch i).answer = .ok none ∧
            (c.dispatch i).core.deliver.answer = c.deliver.answer ∧
            (c.dispatch i).core.deliver.core.Agrees (c.deliver.core.dispatch i).core) ∧
          ∀ e, c.buffer.oldest? = some e → e.waiting = false →
            c.retire.answer = some e ∧ (c.retire.core.dispatch i).answer = .ok none ∧
            (c.dispatch i).core.retire.answer = some e ∧
            (c.dispatch i).core.retire.core.Agrees (c.retire.core.dispatch i).core := by
  obtain ⟨core, hc, hf⟩ := Core.ofConfig_fresh valid
  refine ⟨core, hc, ?_⟩
  intro calls h c hw i hd hi hstation hbuffer
  have hl : h.Located config := .run valid hf calls hw
  have hsorted : Committed.Sorted c.committed.results :=
    History.kept_sorted.run calls trivial (by
      simp only [History.start, hf.committed]
      exact List.Pairwise.nil)
  have hinstall := Core.dispatch_room hd hstation hbuffer
  refine ⟨by rw [hinstall], ?_, fun e ho hdone => ?_⟩
  · obtain ⟨hs, hb⟩ := c.isFull_deliver
    have hinstall' := Core.dispatch_room hd (hs.trans hstation) (hb.trans hbuffer)
    refine ⟨by rw [hinstall'], ?_, ?_⟩
    · rw [hinstall, Core.deliver_answer, Core.deliver_answer]
      rfl
    · rw [hinstall, hinstall']
      exact hl.install_deliver hi hstation hbuffer
  · have hr := ReorderBuffer.retire_eq_some_iff.2 ⟨(c.buffer.oldest?_eq).symm.trans ho, hdone, rfl⟩
    have hretire := Core.retire_some hr
    have hinstall' : c.retire.core.dispatch i = _ :=
      Core.dispatch_room hd (by rw [hretire]; exact hstation)
        (by rw [hretire]; exact ReorderBuffer.isFull_retire hbuffer hr)
    obtain ⟨ha, hagrees⟩ := hl.install_retire hsorted hi hstation hbuffer hr
    rw [hinstall, hinstall']
    exact ⟨by rw [hretire], rfl, ha, hagrees⟩

/-- With the result of tag 2 on the bus and the entry of tag 1 about to retire, an instruction that
reads tags 2, 1 and 0: one operand is woken or forwarded, another forwarded or read as committed. -/
theorem dispatch_commutes_three_ways :
    ∃ core, Core.ofConfig { bufferEntries := 5, tagBits := 3 } = .ok core ∧
      let i n a b f := Instruction.of (.alu .add) n a b f
      let h := (History.start core).run
        [.dispatch (i 0 (.waitingOn ⟨1⟩) (.ready 2) (.ready 0)),
          .dispatch (i 1 (.ready 3) (.ready 4) (.ready 0)),
          .dispatch (i 2 (.ready 5) (.ready 6) (.ready 0)), .step [], .step [], .step []]
      let c := h.core
      let j := i 3 (.waitingOn ⟨2⟩) (.waitingOn ⟨1⟩) (.waitingOn ⟨0⟩)
      let filled (c : Core) := (c.stats.woken, c.stats.forwarded, c.stats.committed)
      ((c.dispatch j).core.deliver.core.Agrees (c.deliver.core.dispatch j).core ∧
          filled (c.dispatch j).core.deliver.core = (2, 1, 1) ∧
          filled (c.deliver.core.dispatch j).core = (1, 2, 1)) ∧
        (c.dispatch j).core.retire.core.Agrees (c.retire.core.dispatch j).core ∧
        filled (c.dispatch j).core.retire.core = (1, 1, 1) ∧
        filled (c.retire.core.dispatch j).core = (1, 0, 2) := by
  obtain ⟨core, hc, hl⟩ := dispatch_commutes
    (show Config.validate { bufferEntries := 5, tagBits := 3 } = .ok () by decide)
  obtain rfl := Except.ok.inj (hc.symm.trans rfl)
  refine ⟨_, rfl, ?_⟩
  intro i h c j filled
  have hw : Spaced (TagSpace.window ⟨3, by decide, by decide⟩) (h.installed.map (·.tag)) := by
    decide +kernel
  obtain ⟨e, ho⟩ : ∃ e, c.buffer.oldest? = some e := Option.isSome_iff_exists.1 (by decide +kernel)
  have hdone : c.buffer.oldest?.any (·.waiting) = false := by decide +kernel
  rw [ho] at hdone
  obtain ⟨-, ⟨-, -, hdeliver⟩, hretire⟩ := hl _ hw j (by decide) (by decide +kernel)
    (by decide +kernel) (by decide +kernel)
  exact ⟨⟨hdeliver, by decide +kernel, by decide +kernel⟩, (hretire e ho hdone).2.2.2,
    by decide +kernel, by decide +kernel⟩

end OutOfOrder
