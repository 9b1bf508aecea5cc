import Mathlib
import OutOfOrder.Proofs.InFlight

/-!
# Progress

If every waiting operand names the tag of an instruction installed before, then what an entry of
the station waits for is the result of an older instruction that is itself still to complete
(`Ordered`). So once the bus is free, nothing can keep the oldest waiting instruction from being
issued, and a station that is not empty issues in every cycle. With tags handed out in a row, the
one that is issued is the oldest that has not been (`InTurn`). And a core that gets nothing new is
drained after as many cycles as there are entries in the station and in the buffer together.
-/

namespace OutOfOrder

namespace History

/-! ## Who waits for whom -/

/-- What an entry of the station waits for is older than itself, and waits as well. -/
structure Ordered (config : Config) (h : History) : Prop extends Located config h where
  ordered : ∀ s ∈ h.core.station.live, ∀ k, (s.operands.get k).waiting = true →
    [(s.operands.get k).tag, s.tag].Sublist h.core.buffer.waitingTags

namespace Ordered

variable {config : Config} {h : History}

theorem start {core : Core} (valid : config.validate = .ok ()) (hf : core.Fresh config) :
    Ordered config (History.start core) where
  toLocated := .start valid hf
  ordered := by simp [History.start, hf.station]

theorem frame (ho : Ordered config h) (latch : Option Instruction) (predictor : Counter)
    (stats : Stats) : Ordered config (h.frame latch predictor stats) :=
  ⟨ho.toLocated.frame _ _ _, ho.ordered⟩

theorem broadcast (ho : Ordered config h) {r : Result} (hb : h.core.bus.pending = some r) :
    Ordered config (h.broadcast r) := by
  refine ⟨ho.toLocated.broadcast hb, fun s hs k hw => ?_⟩
  obtain ⟨s0, hs0, rfl⟩ := List.mem_map.1 (Station.live_wake _ r ▸ hs)
  rw [Station.Entry.get_wake (Station.occupied_of_mem_live hs0)] at hw ⊢
  obtain ⟨-, -, he⟩ | ⟨hn, he⟩ :=
    (s0.operands.get k).resolve_cases r.tag (r.outcome.read k)
  · rw [he] at hw
    cases hw
  · rw [he] at hw ⊢
    have hsub := (ho.ordered s0 hs0 k hw).filter (· ≠ r.tag)
    have hne := ho.tag_ne hb hs0
    rw [← ReorderBuffer.waitingTags_complete ho.distinct] at hsub
    simpa [History.broadcast, hn hw, hne] using hsub

theorem leave (ho : Ordered config h) {e : ReorderBuffer.Entry} {buffer : ReorderBuffer}
    (hb : h.core.buffer.retire = some (e, buffer)) : Ordered config (h.leave e buffer) :=
  ⟨ho.toLocated.leave hb, (ReorderBuffer.waitingTags_retire hb).symm ▸ ho.ordered⟩

theorem send (ho : Ordered config h) {e : Station.Entry} {station : Station}
    (hb : h.core.bus.pending = none) (hi : h.core.station.issue = some (e.request, station))
    {n : Nat} (hr : h.core.station.oldestReady = some (e, n)) (o : Outcome) :
    Ordered config (h.send e station o) := by
  have hp := Station.live_issue hr hi
  exact ⟨ho.toLocated.send hb hi hr o,
    fun s hs => ho.ordered s (hp.symm.subset (List.mem_cons_of_mem _ hs))⟩

theorem install (ho : Ordered config h) (valid : config.validate = .ok ()) {i : Instruction}
    (hw : Spaced h.core.tags.window ((h.installed ++ [i]).map (·.tag)))
    (hi : Supplied (h.installed ++ [i])) (hd : i.opcode.decode.isSome = true)
    (hf : h.core.station.isFull = false) (hb : h.core.buffer.isFull = false) :
    Ordered config (h.install i) := by
  refine ⟨ho.toLocated.install valid hw hd hf hb, fun s hs k hk => ?_⟩
  have hwait : (h.install i).core.buffer.waitingTags = h.core.buffer.waitingTags ++ [i.tag] :=
    ReorderBuffer.waitingTags_push hb _ _
  have hlive : (h.install i).core.station.live.Perm
      (.ofInstruction (h.core.resolved i) :: h.core.station.live) :=
    Station.live_push ho.counted hf _
  rw [hwait]
  rcases List.mem_cons.1 (hlive.subset hs) with rfl | hs
  · -- the new instruction waits only for what is itself still waiting
    change ((h.core.resolved i).operands.get k).waiting = true at hk
    change [((h.core.resolved i).operands.get k).tag, i.tag].Sublist _
    rw [Core.get_resolved] at hk ⊢
    obtain ⟨hn, he⟩ | ⟨hn, hs, he⟩ | ⟨s, -, -, he⟩ := h.core.resolve_cases k (i.operands.get k)
    · rw [he, hn] at hk
      cases hk
    · rw [he]
      obtain ⟨j, hj, ht⟩ := hi.last hn
      have hm := ho.mem_waitingTags hs (ht ▸ List.mem_map_of_mem hj)
      exact (List.singleton_sublist.2 hm).append (List.Sublist.refl [i.tag])
    · rw [he] at hk
      cases hk
  · exact (ho.ordered s hs k hk).trans (List.sublist_append_left _ _)

/-- `Ordered` is kept by whatever happens in a phase as long as equal tags are a window apart and
waiting operands name earlier instructions. -/
theorem kept (valid : config.validate = .ok ()) {tags : TagSpace}
    (ht : config.tagSpace = .ok tags) :
    Kept (fun is => Spaced tags.window (is.map (·.tag)) ∧ Supplied is) (Ordered config) where
  closed := fun hc => ⟨(List.map_append ▸ hc.1).of_append, hc.2.of_append⟩
  frame := fun _ _ _ ho => ho.frame _ _ _
  broadcast := fun _ hb ho => ho.broadcast hb
  leave := fun _ hb ho => ho.leave hb
  send := fun _ hb hr hi _ ho => ho.send hb hi hr _
  install := fun hc hd hf hb ho => ho.install valid (ho.tags_eq ht ▸ hc.1) hc.2 hd hf hb

/-! ## The oldest waiting instruction can be issued -/

/-- While the bus is free, nothing that the oldest waiting instruction needs is missing. -/
theorem oldest_ready (ho : Ordered config h) (hb : h.core.bus.pending = none) {t : Tag}
    {ts : List Tag} (hw : h.core.buffer.waitingTags = t :: ts) :
    ∃ s ∈ h.core.station.live, s.tag = t ∧ s.ready = true := by
  have hp := ho.waiting
  have hd := ho.distinct.sublist h.core.buffer.waitingTags_sublist
  rw [hb, hw, Option.toList_none, List.map_nil, List.append_nil] at hp
  obtain ⟨s, hs, rfl⟩ := List.mem_map.1 (hp.subset List.mem_cons_self)
  refine ⟨s, hs, rfl, (Station.Entry.ready_iff (Station.occupied_of_mem_live hs)).2 fun k => ?_⟩
  by_contra hk
  have hsub := ho.ordered s hs k (by simpa using hk)
  -- its producer would stand before it, but it is the first
  rw [hw] at hd hsub
  have hm : s.tag ∈ ts := by
    rcases List.cons_sublist_cons'.1 hsub with hsub | ⟨-, hsub⟩
    · exact hsub.subset (by simp)
    · exact List.singleton_sublist.1 hsub
  exact (List.nodup_cons.1 hd).1 hm

/-- With the bus free, the issue phase sends an instruction unless the station is empty. -/
theorem issue_cases (ho : Ordered config h) (hb : h.core.bus.pending = none) :
    (h.core.station.live = [] ∧
        ∃ stats, h.issue = h.frame h.core.latch h.core.predictor stats) ∨
      ∃ e n station, ∃ op : Operation, ∃ predictor stats,
        h.core.station.oldestReady = some (e, n) ∧
        h.core.station.issue = some (e.request, station) ∧
        h.issue = (h.send e station (op.outcome e.operands.values)).frame h.core.latch predictor
          stats := by
  obtain ⟨hn | ⟨e, he, hd⟩, stats, hi⟩ | ⟨e, n, station, op, predictor, stats, hr, hi, -, he⟩ :=
    h.issue_cases hb
  · refine .inl ⟨?_, stats, hi⟩
    rw [← ho.waitingTags_eq_nil hb, List.eq_nil_iff_forall_not_mem]
    intro t ht
    obtain ⟨t, ts, hw⟩ := List.exists_cons_of_ne_nil (List.ne_nil_of_mem ht)
    obtain ⟨s, hs, -, hr⟩ := ho.oldest_ready hb hw
    rw [Station.issue_eq_none.1 hn s hs] at hr
    cases hr
  · have := ho.decodes e he
    rw [hd] at this
    cases this
  · exact .inr ⟨e, n, station, op, predictor, stats, hr, hi, he⟩

end Ordered

/-! ## Issuing -/

/-- What a cycle sends is sent by its issue phase. -/
theorem issued_settle_issue (h : History) (source : List Instruction) :
    h.settle.issue.issued = h.issued ++ (h.core.step source).issued := by
  rw [h.core.step_issued source]
  rfl

theorem tags_live_deliver (h : History) :
    h.deliver.core.station.live.map (·.tag) = h.core.station.live.map (·.tag) := by
  obtain ⟨-, he⟩ | ⟨r, stats, -, he⟩ := h.deliver_cases
  · rw [he]
  · rw [he]
    change (h.core.station.wake r).1.live.map (·.tag) = _
    rw [Station.live_wake, List.map_map]
    exact List.map_congr_left fun s _ => s.tag_wake r

theorem tags_live_settle (h : History) :
    h.settle.core.station.live.map (·.tag) = h.core.station.live.map (·.tag) := by
  have hd := tags_live_deliver h.begun
  obtain ⟨-, stats, he⟩ | ⟨e, buffer, stats, -, he⟩ := h.begun.deliver.retire_cases
  · rw [settle, he]; exact hd
  · rw [settle, he]; exact hd

/-- A cycle issues one instruction, unless the station is empty. -/
theorem Ordered.step_issued_cases {config : Config} {h : History} {tags : TagSpace}
    (valid : config.validate = .ok ()) (ht : config.tagSpace = .ok tags) (ho : Ordered config h)
    (hc : Spaced tags.window (h.installed.map (·.tag)) ∧ Supplied h.installed)
    (source : List Instruction) :
    (h.core.station.live = [] ∧ (h.core.step source).issued = []) ∨
      (h.core.station.live ≠ [] ∧ ∃ r, (h.core.step source).issued = [r]) := by
  have hs := issued_settle_issue h source
  rw [Ne, ← List.map_eq_nil_iff (f := (·.tag)), ← tags_live_settle, List.map_eq_nil_iff]
  obtain ⟨hl, stats, he⟩ | ⟨e, n, station, op, predictor, stats, hr, -, he⟩ :=
    Ordered.issue_cases ((kept valid ht).settle hc ho) h.pending_settle
  · rw [he] at hs
    exact .inl ⟨hl, List.self_eq_append_right.1 hs⟩
  · rw [he] at hs
    exact .inr ⟨List.ne_nil_of_mem (Station.mem_live_of_oldestReady hr), e.request,
      (List.append_cancel_left hs).symm⟩

/-! ## Issuing in turn -/

theorem Located.pairwise_older {config : Config} {h : History} (hl : Located config h)
    (valid : config.validate = .ok ())
    (hc : Consecutive h.core.tags (h.installed.map (·.tag))) :
    h.core.buffer.waitingTags.Pairwise fun a b =>
      h.core.tags.older a b = true ∧ h.core.tags.older b a = false := by
  refine List.Pairwise.sublist h.core.buffer.waitingTags_sublist ?_
  rw [hl.entries_tags]
  exact hc.pairwise_older (by simpa using hl.length_le valid)

/-- With tags in order of age, the oldest waiting instruction is the one that is found. -/
theorem Ordered.oldestReady_eq {config : Config} {h : History} (ho : Ordered config h)
    (hb : h.core.bus.pending = none)
    (hp : h.core.buffer.waitingTags.Pairwise fun a b =>
      h.core.tags.older a b = true ∧ h.core.tags.older b a = false)
    {e : Station.Entry} {n : Nat} (hr : h.core.station.oldestReady = some (e, n)) :
    ∃ ts, h.core.buffer.waitingTags = e.tag :: ts := by
  have hne : h.core.buffer.waitingTags ≠ [] := by
    rw [Ne, ho.waitingTags_eq_nil hb]
    exact List.ne_nil_of_mem (Station.mem_live_of_oldestReady hr)
  obtain ⟨t, ts, hw⟩ := List.exists_cons_of_ne_nil hne
  obtain ⟨s, hs, rfl, hsr⟩ := ho.oldest_ready hb hw
  have hl := ho.waiting
  rw [hb, hw, Option.toList_none, List.map_nil, List.append_nil] at hl
  rw [hw, List.pairwise_cons] at hp
  refine ⟨ts, hw.trans (congrArg (· :: ts) ?_)⟩
  refine (Station.oldestReady_tag hr hs hsr fun y hy hne => hp.1 _ ?_).symm
  exact (List.mem_cons.1 (hl.symm.subset (List.mem_map_of_mem hy))).resolve_left hne

/-- The instructions issued are the first ones installed, and the others wait in the buffer behind
the one whose result is on the bus. -/
structure InTurn (config : Config) (h : History) : Prop extends Ordered config h where
  turn : ∃ flying unissued, h.installed.map (·.key) = h.issued.map (·.key) ++ unissued ∧
    h.core.buffer.waiting.map (·.key) = flying ++ unissued ∧
    flying.map Prod.fst = h.core.bus.pending.toList.map (·.tag)

namespace InTurn

variable {config : Config} {h : History}

theorem start {core : Core} (valid : config.validate = .ok ()) (hf : core.Fresh config) :
    InTurn config (History.start core) where
  toOrdered := .start valid hf
  turn := ⟨[], [], by
    simp [History.start, hf.buffer, hf.bus, ReorderBuffer.waiting, ReorderBuffer.entries_empty,
      ResultBus.idle]⟩

theorem frame (ht : InTurn config h) (latch : Option Instruction) (predictor : Counter)
    (stats : Stats) : InTurn config (h.frame latch predictor stats) :=
  ⟨ht.toOrdered.frame _ _ _, ht.turn⟩

theorem broadcast (ht : InTurn config h) {r : Result} (hb : h.core.bus.pending = some r) :
    InTurn config (h.broadcast r) := by
  refine ⟨ht.toOrdered.broadcast hb, ?_⟩
  obtain ⟨flying, unissued, hi, hw, hf⟩ := ht.turn
  refine ⟨[], unissued, hi, ?_, rfl⟩
  rw [hb, Option.toList_some, List.map_singleton, List.map_eq_singleton_iff] at hf
  obtain ⟨k, rfl, hk⟩ := hf
  obtain ⟨e, rest, hr, he, hrest⟩ := List.map_eq_cons_iff.1 hw
  have het : e.tag = r.tag := (congrArg Prod.fst he).trans hk
  have hd : h.core.buffer.waitingTags.Nodup := ht.distinct.sublist h.core.buffer.waitingTags_sublist
  rw [ReorderBuffer.waitingTags, hr, List.map_cons, List.nodup_cons] at hd
  have hwait : (h.broadcast r).core.buffer.waiting = rest := by
    refine (ReorderBuffer.waiting_complete ht.distinct r).trans ?_
    rw [hr, List.filter_cons_of_neg (by simp [het]), List.filter_eq_self]
    intro x hx
    have : x.tag ≠ e.tag := fun hxe => hd.1 (hxe ▸ List.mem_map_of_mem hx)
    simpa [het] using this
  rw [hwait]
  exact hrest

theorem leave (ht : InTurn config h) {e : ReorderBuffer.Entry} {buffer : ReorderBuffer}
    (hb : h.core.buffer.retire = some (e, buffer)) : InTurn config (h.leave e buffer) :=
  ⟨ht.toOrdered.leave hb, (ReorderBuffer.waiting_retire hb).symm ▸ ht.turn⟩

theorem send (ht : InTurn config h) (valid : config.validate = .ok ())
    (hc : Consecutive h.core.tags (h.installed.map (·.tag))) {e : Station.Entry}
    {station : Station} (hb : h.core.bus.pending = none)
    (hi : h.core.station.issue = some (e.request, station)) {n : Nat}
    (hr : h.core.station.oldestReady = some (e, n)) (o : Outcome) :
    InTurn config (h.send e station o) := by
  refine ⟨ht.toOrdered.send hb hi hr o, ?_⟩
  obtain ⟨ts, hw⟩ := ht.toOrdered.oldestReady_eq hb (ht.toLocated.pairwise_older valid hc) hr
  obtain ⟨x, rest, hx, hxt, -⟩ := List.map_eq_cons_iff.1 hw
  -- the entry that is first in turn is that of the instruction which was found
  have hxk : x.key = e.request.key := by
    obtain ⟨y, hy, -, hk⟩ := ht.keyed e (Station.mem_live_of_oldestReady hr)
    have hxm := (ReorderBuffer.mem_waiting.1 (hx ▸ List.mem_cons_self (a := x) (l := rest))).1
    rw [List.inj_on_of_nodup_map ht.distinct hxm hy (hxt.trans (congrArg Prod.fst hk).symm), hk]
    rfl
  obtain ⟨flying, unissued, hin, hwait, hf⟩ := ht.turn
  rw [hb, Option.toList_none, List.map_nil, List.map_eq_nil_iff] at hf
  rw [hf, List.nil_append, hx, List.map_cons] at hwait
  refine ⟨[x.key], rest.map (·.key), hin.trans ?_, congrArg (List.map (·.key)) hx,
    congrArg (fun k => [Prod.fst k]) hxk⟩
  rw [← hwait, hxk]
  simp [History.send]

theorem install (ht : InTurn config h) (valid : config.validate = .ok ()) {i : Instruction}
    (hw : Spaced h.core.tags.window ((h.installed ++ [i]).map (·.tag)))
    (hs : Supplied (h.installed ++ [i])) (hd : i.opcode.decode.isSome = true)
    (hf : h.core.station.isFull = false) (hb : h.core.buffer.isFull = false) :
    InTurn config (h.install i) := by
  refine ⟨ht.toOrdered.install valid hw hs hd hf hb, ?_⟩
  obtain ⟨flying, unissued, hin, hwait, hfl⟩ := ht.turn
  refine ⟨flying, unissued ++ [i.key], ?_, ?_, hfl⟩
  · change (h.installed ++ [i]).map (·.key) = _
    rw [List.map_append, hin, List.append_assoc]
    rfl
  · have : (h.install i).core.buffer.waiting =
        h.core.buffer.waiting ++ [.pending i.opcode i.tag] := ReorderBuffer.waiting_push hb _ _
    rw [this, List.map_append, hwait, List.append_assoc]
    rfl

/-- `InTurn` is kept by whatever happens in a phase as long as, besides, the tags are handed out
in a row. -/
theorem kept (valid : config.validate = .ok ()) {tags : TagSpace}
    (htags : config.tagSpace = .ok tags) :
    Kept (fun is => (Spaced tags.window (is.map (·.tag)) ∧ Supplied is) ∧
      Consecutive tags (is.map (·.tag))) (InTurn config) where
  closed := fun hc => ⟨(Ordered.kept valid htags).closed hc.1, (List.map_append ▸ hc.2).of_append⟩
  frame := fun _ _ _ ht => ht.frame _ _ _
  broadcast := fun _ hb ht => ht.broadcast hb
  leave := fun _ hb ht => ht.leave hb
  send := fun hc hb hr hi _ ht => ht.send valid (ht.tags_eq htags ▸ hc.2) hb hi hr _
  install := fun hc hd hf hb ht =>
    ht.install valid (ht.tags_eq htags ▸ hc.1.1) hc.1.2 hd hf hb

/-- What was installed has been issued or is in the station. -/
theorem length_installed (ht : InTurn config h) :
    h.installed.length = h.issued.length + h.core.station.live.length := by
  obtain ⟨flying, unissued, hin, hwait, hf⟩ := ht.turn
  have h1 := congrArg List.length hin
  have h2 := congrArg List.length hwait
  have h3 := congrArg List.length hf
  have h4 := ht.waiting.length_eq
  simp only [List.length_append, List.length_map, ReorderBuffer.waitingTags] at h1 h2 h3 h4
  omega

/-- A cycle issues the oldest instruction that was not issued before, if there is one. -/
theorem step_issued (ht : InTurn config h) {tags : TagSpace} (valid : config.validate = .ok ())
    (htags : config.tagSpace = .ok tags)
    (hc : (Spaced tags.window (h.installed.map (·.tag)) ∧ Supplied h.installed) ∧
      Consecutive tags (h.installed.map (·.tag))) (source : List Instruction) :
    (h.core.step source).issued.map (·.key) =
      ((h.installed.drop h.issued.length).take 1).map (·.key) := by
  have hlen := ht.length_installed
  have k := kept valid htags
  have hs : InTurn config h.settle.issue :=
    k.issue (h := h.settle) hc h.pending_settle (k.settle hc ht)
  obtain ⟨flying, unissued, hin, -, -⟩ := hs.turn
  have hin : h.installed.map (·.key) = h.settle.issue.issued.map (·.key) ++ unissued := hin
  rw [issued_settle_issue h source] at hin
  obtain ⟨hl, hi⟩ | ⟨-, r, hi⟩ := ht.toOrdered.step_issued_cases valid htags hc.1 source
  · rw [hl, List.length_nil, Nat.add_zero] at hlen
    rw [hi, List.drop_of_length_le (Nat.le_of_eq hlen)]
    rfl
  · rw [hi, List.map_append, List.append_assoc] at hin
    rw [hi, List.map_take, List.map_drop, hin, List.drop_left' (List.length_map _)]
    rfl

end InTurn

/-! ## Draining -/

/-- The entries that a core still has to issue and to retire. -/
def work (h : History) : Nat := h.core.station.live.length + h.core.buffer.entries.length

theorem length_entries_deliver (h : History) :
    h.deliver.core.buffer.entries.length = h.core.buffer.entries.length := by
  obtain ⟨-, he⟩ | ⟨r, stats, -, he⟩ := h.deliver_cases
  · rw [he]
  · rw [he]
    exact h.core.buffer.length_complete r

namespace Ordered

variable {config : Config} {h : History}

theorem isDrained_iff (ho : Ordered config h) (hl : h.core.latch = none) :
    h.core.isDrained = true ↔ h.work = 0 := by
  simp only [Core.isDrained, hl, Option.isNone_none, Bool.true_and, Bool.and_eq_true,
    Station.isEmpty_iff ho.counted, ReorderBuffer.isEmpty_eq_true_iff, work, Nat.add_eq_zero_iff,
    List.length_eq_zero_iff]
  refine ⟨And.left, fun he => ⟨he, ?_⟩⟩
  have hp := ho.waiting
  rw [ReorderBuffer.waitingTags, ReorderBuffer.waiting, he.1, he.2] at hp
  simpa [ResultBus.isFree] using hp

/-- The retirement phase makes the buffer shorter, unless the station still holds something. -/
theorem retire_shorter (ho : Ordered config h) (hb : h.core.bus.pending = none) :
    h.retire.core.buffer.entries.length ≤ h.core.buffer.entries.length ∧
      (h.core.station.live = [] →
        h.retire.core.buffer.entries.length ≤ h.core.buffer.entries.length - 1) := by
  obtain ⟨hn, stats, he⟩ | ⟨e, buffer, stats, hr, he⟩ := h.retire_cases
  · rw [he]
    refine ⟨Nat.le_refl _, fun hs => ?_⟩
    have hw := (ho.waitingTags_eq_nil hb).2 hs
    -- nothing waits, so the oldest entry would retire
    cases hl : h.core.buffer.entries with
    | nil => simp [History.frame, hl]
    | cons x l =>
      have hx := ReorderBuffer.retire_eq_none.1 hn x (by rw [hl]; rfl)
      have hm := ReorderBuffer.mem_waitingTags.2 ⟨x, hl ▸ List.mem_cons_self, hx, rfl⟩
      rw [hw] at hm
      cases hm
  · have hl := congrArg List.length (ReorderBuffer.retire_eq_some hr).1
    rw [List.length_cons] at hl
    rw [he]
    change buffer.entries.length ≤ _ ∧ (_ → buffer.entries.length ≤ _)
    omega

/-- The issue phase makes the station shorter. -/
theorem issue_shorter (ho : Ordered config h) (hb : h.core.bus.pending = none) :
    h.issue.core.station.live.length ≤ h.core.station.live.length - 1 ∧
      h.issue.core.buffer = h.core.buffer := by
  obtain ⟨hl, stats, he⟩ | ⟨e, n, station, op, predictor, stats, hr, hi, he⟩ := ho.issue_cases hb
  · rw [he]
    exact ⟨by simp [History.frame, hl], rfl⟩
  · have hl := (Station.live_issue hr hi).length_eq
    rw [List.length_cons] at hl
    rw [he]
    exact ⟨by rw [hl, Nat.add_sub_cancel]; exact Nat.le_refl _, rfl⟩

/-- The phases before dispatch make the work less. -/
theorem work_settle_issue {tags : TagSpace} (valid : config.validate = .ok ())
    (ht : config.tagSpace = .ok tags) (ho : Ordered config h)
    (hc : Spaced tags.window (h.installed.map (·.tag)) ∧ Supplied h.installed) :
    h.settle.issue.work ≤ h.work - 1 := by
  have k := kept valid ht
  have hd : Ordered config h.begun.deliver := k.deliver (h := h.begun) hc (ho.frame _ _ _)
  have hs : Ordered config h.settle := k.retire (h := h.begun.deliver) hc hd
  obtain ⟨hle, hlt⟩ := hd.retire_shorter h.begun.pending_deliver
  obtain ⟨hi, hb⟩ := hs.issue_shorter h.pending_settle
  have h1 := congrArg List.length (tags_live_deliver h.begun)
  have h2 := length_entries_deliver h.begun
  have h3 := congrArg List.length (tags_live_settle h)
  rw [List.length_map, List.length_map] at h1 h3
  rw [← List.length_eq_zero_iff] at hlt
  change h.settle.core.buffer.entries.length ≤ _ at hle
  change _ → h.settle.core.buffer.entries.length ≤ _ at hlt
  change _ = h.core.station.live.length at h1
  change _ = h.core.buffer.entries.length at h2
  rw [work, work, hb]
  omega

theorem drain {tags : TagSpace} (valid : config.validate = .ok ())
    (ht : config.tagSpace = .ok tags) {n : Nat} (ho : Ordered config h)
    (hc : Spaced tags.window (h.installed.map (·.tag)) ∧ Supplied h.installed)
    (hl : h.core.latch = none) (hn : h.work ≤ n) :
    (h.run (List.replicate n (.step []))).core.isDrained = true := by
  induction n generalizing h with
  | zero => exact (ho.isDrained_iff hl).2 (Nat.le_zero.1 hn)
  | succ n ih =>
    have hw := ho.work_settle_issue valid ht hc
    rw [List.replicate_succ, run, List.foldl_cons, call_idle hl]
    refine ih ((kept valid ht).issue (h := h.settle) hc h.pending_settle
      ((kept valid ht).settle hc ho)) hc ?_ (by omega)
    exact (Core.settled_outer h.core).1.trans hl

end Ordered

end History

/-! ## Never idle and never stuck -/

/-- As long as equal tags are a window apart and waiting operands name earlier instructions, a cycle
issues if and only if the station held something when it began. With tags handed out in a row it
issues the oldest instruction that is left, so all are issued in the order of installation. And
once nothing is latched and nothing comes from the source, a core is drained after as many cycles
as there are entries in the station and in the buffer together. -/
theorem never_idle {config : Config} (valid : config.validate = .ok ()) :
    ∃ core, Core.ofConfig config = .ok core ∧
      ∀ calls, let h := (History.start core).run calls
        Spaced core.tags.window (h.installed.map (·.tag)) → Supplied h.installed →
          (∀ source, ((h.core.step source).issued ≠ [] ↔ h.core.station.isEmpty = false) ∧
            ∀ report, (h.core.step source).outcome = .ok report →
              (report.issued.isSome = true ↔ h.core.station.isEmpty = false)) ∧
          (Consecutive core.tags (h.installed.map (·.tag)) →
            h.issued.map (·.key) <+: h.installed.map (·.key) ∧
              ∀ source, (h.core.step source).issued.map (·.key) =
                ((h.installed.drop h.issued.length).take 1).map (·.key)) ∧
          (h.core.latch = none → ∀ n, h.core.station.occupied + h.core.buffer.length ≤ n →
            (h.run (List.replicate n (.step []))).core.isDrained = true) := by
  obtain ⟨core, hcore, hf⟩ := Core.ofConfig_fresh valid
  refine ⟨core, hcore, ?_⟩
  intro calls h hw hi
  have ho : History.Ordered config h :=
    (History.Ordered.kept valid hf.tags).run calls ⟨hw, hi⟩ (.start valid hf)
  have hempty : h.core.station.isEmpty = false ↔ h.core.station.live ≠ [] := by
    rw [← Bool.not_eq_true, Station.isEmpty_iff ho.counted]
  refine ⟨fun source => ?_, fun hc => ⟨?_, fun source => ?_⟩, fun hl n hn => ?_⟩
  · have hr := fun report => @Core.report_issued h.core source report
    rw [hempty]
    obtain ⟨hl, he⟩ | ⟨hl, r, he⟩ := ho.step_issued_cases valid hf.tags ⟨hw, hi⟩ source
    · rw [he] at hr ⊢
      exact ⟨by simp [hl], fun report h => by rw [hr report h]; simp [hl]⟩
    · rw [he] at hr ⊢
      exact ⟨by simp [hl], fun report h => by rw [hr report h]; simp [hl]⟩
  · have ht := (History.InTurn.kept valid hf.tags).run calls ⟨⟨hw, hi⟩, hc⟩ (.start valid hf)
    obtain ⟨-, unissued, hin, -, -⟩ := ht.turn
    exact ⟨unissued, hin.symm⟩
  · have ht := (History.InTurn.kept valid hf.tags).run calls ⟨⟨hw, hi⟩, hc⟩ (.start valid hf)
    exact ht.step_issued valid hf.tags ⟨⟨hw, hi⟩, hc⟩ source
  · refine ho.drain valid hf.tags ⟨hw, hi⟩ hl ?_
    rwa [History.work, ← ho.counted, ReorderBuffer.length_entries]

/-- Three instructions in a chain: with the first on the bus and the others in the station, the
second is issued next, and five cycles drain the core. -/
theorem never_idle_chain :
    ∃ core, Core.ofConfig { bufferEntries := 4, stationEntries := 2, tagBits := 3 } = .ok core ∧
      let i n f := Instruction.of (.alu .sub) n (.ready 7) (.ready 4) f
      let h := (History.start core).run
        [.dispatch (i 0 (.ready 0)), .dispatch (i 1 (.waitingOn ⟨0⟩)),
          .step [i 2 (.waitingOn ⟨1⟩)]]
      (h.core.step []).issued.map (·.key) = [(i 1 (.waitingOn ⟨0⟩)).key] ∧
        ((h.core.step []).issued ≠ [] ↔ h.core.station.isEmpty = false) ∧
        (h.run (List.replicate 5 (.step []))).core.isDrained = true := by
  obtain ⟨core, hc, h⟩ := never_idle
    (show Config.validate { bufferEntries := 4, stationEntries := 2, tagBits := 3 } = .ok () by
      decide)
  obtain rfl := Except.ok.inj (hc.symm.trans rfl)
  refine ⟨_, rfl, ?_⟩
  intro i h'
  obtain ⟨hidle, hturn, hdrain⟩ := h
    [.dispatch (i 0 (.ready 0)), .dispatch (i 1 (.waitingOn ⟨0⟩)), .step [i 2 (.waitingOn ⟨1⟩)]]
    (by decide +kernel) (by decide +kernel)
  refine ⟨?_, (hidle []).1, hdrain (by decide +kernel) 5 (by decide +kernel)⟩
  rw [(hturn ⟨0, by decide +kernel⟩).2]
  decide +kernel

end OutOfOrder
