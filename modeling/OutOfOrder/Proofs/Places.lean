import Mathlib
import OutOfOrder.Proofs.Provenance

/-!
# The place of an instruction in flight

While equal tags are a window apart, not only the tags of the buffer but its entries are those of
the instructions in flight, one by one. The log, what has retired and then what the buffer holds,
has one entry for each instruction installed, in order; `Sited` says that an entry of it waits
exactly while the very instruction at its place is in the station (`held`), or its result is on the
bus (`flying`). A tag alone cannot say so much, as an instruction that retired long ago may have
carried it too.
-/

namespace OutOfOrder

/-- Where keys are distinct, a key is at one place. -/
theorem place_of_nodup_map {α β : Type} {f : α → β} {l : List α} (hd : (l.map f).Nodup) {i j : Nat}
    {x y : α} (hi : l[i]? = some x) (hj : l[j]? = some y) (h : f x = f y) : i = j := by
  have hlt := (List.getElem?_eq_some_iff.1 hi).1
  refine (List.getElem?_inj (by simpa using hlt) hd).1 ?_
  rw [List.getElem?_map, List.getElem?_map, hi, hj, Option.map_some, Option.map_some, h]

namespace Ledger

/-- The places of the instructions in the station. -/
def held (l : Ledger) : List Nat := l.history.core.station.holding.map l.origin

/-- The place of the instruction whose result is on the bus. -/
def flying (l : Ledger) : Option Nat :=
  if l.history.core.bus.isFree then none else l.sent.getLast?

theorem mem_held {l : Ledger} {n : Nat} {e : Station.Entry}
    (he : l.history.core.station.slots[n]? = some e) (ho : e.occupied = true) :
    l.origin n ∈ l.held := List.mem_map_of_mem (Station.mem_holding.2 ⟨e, he, ho⟩)

theorem flying_of_pending {l : Ledger} {r : Result} (hb : l.history.core.bus.pending = some r) :
    l.flying = l.sent.getLast? := by
  rw [flying, ResultBus.isFree, hb]
  rfl

theorem flying_of_free {l : Ledger} (hb : l.history.core.bus.pending = none) :
    l.flying = none := by
  rw [flying, ResultBus.isFree, hb]
  rfl

/-- A result comes from the bus, and the instruction that waits at the place of an entry is known by
that place (module doc). -/
structure Sited (config : Config) (l : Ledger) : Prop extends Traced config l where
  located : History.Located config l.history
  last : ∀ r, l.history.core.bus.pending = some r → l.results.getLast? = some r
  sited : ∀ p e, (l.history.retired ++ l.history.core.buffer.entries)[p]? = some e →
    (e.waiting = true ↔ p ∈ l.held ∨ l.flying = some p)

namespace Traced

variable {config : Config} {l : Ledger}

theorem held_sent (ht : Traced config l) :
    (l.held ++ l.sent).Perm (List.range l.history.installed.length) := ht.placed

theorem not_sent_of_held (ht : Traced config l) {p : Nat} (hp : p ∈ l.held) : p ∉ l.sent := by
  have hd := ht.held_sent.nodup_iff.2 List.nodup_range
  exact fun hs => List.disjoint_of_nodup_append hd hp hs

/-- Two occupied slots do not hold the same instruction. -/
theorem origin_inj (ht : Traced config l) {m n : Nat} (hm : m ∈ l.history.core.station.holding)
    (hn : n ∈ l.history.core.station.holding) (h : l.origin m = l.origin n) : m = n := by
  have hd := (ht.held_sent.nodup_iff.2 List.nodup_range).of_append_left
  exact List.inj_on_of_nodup_map hd hm hn h

end Traced

/-! ## The station as places -/

theorem held_send {l : Ledger} {e : Station.Entry} {n : Nat} {station : Station} (o : Outcome)
    (ho : l.history.core.station.oldestReady = some (e, n))
    (hi : l.history.core.station.issue = some (e.request, station)) :
    l.held.Perm (l.origin n :: (l.send e n station o).held) :=
  (Station.holding_issue ho hi).map l.origin

theorem held_install {l : Ledger} (hc : l.history.core.station.Counted)
    (hf : l.history.core.station.isFull = false) (i : Instruction) :
    (l.install i).held.Perm (l.history.installed.length :: l.held) := by
  obtain ⟨hfree, hp⟩ := Station.holding_push hc hf (l.history.core.resolved i)
  have hself : l.fill l.history.core.station.freeSlot = l.history.installed.length :=
    Function.update_self ..
  have hother : l.history.core.station.holding.map l.fill = l.held :=
    List.map_congr_left fun n hn => Function.update_of_ne (by rintro rfl; exact hfree hn) _ _
  have := hp.map l.fill
  rwa [List.map_cons, hself, hother] at this

namespace Sited

variable {config : Config} {l : Ledger}

/-- The log has an entry for each place. -/
theorem log_length (hs : Sited config l) :
    (l.history.retired ++ l.history.core.buffer.entries).length = l.history.installed.length := by
  simpa using congrArg List.length hs.log

theorem tag_of_log (hs : Sited config l) {p : Nat} {e : ReorderBuffer.Entry}
    (he : (l.history.retired ++ l.history.core.buffer.entries)[p]? = some e) :
    (l.history.installed.map (·.tag))[p]? = some e.tag := by
  rw [← hs.log_tags, List.getElem?_map, he]
  rfl

/-- An entry of the log that waits is in the buffer. -/
theorem in_buffer (hs : Sited config l) {p : Nat} {e : ReorderBuffer.Entry}
    (he : (l.history.retired ++ l.history.core.buffer.entries)[p]? = some e)
    (hw : e.waiting = true) : l.history.retired.length ≤ p ∧
      l.history.core.buffer.entries[p - l.history.retired.length]? = some e := by
  by_cases hp : p < l.history.retired.length
  · rw [List.getElem?_append_left hp] at he
    rw [hs.done e (List.mem_of_getElem? he)] at hw
    cases hw
  · rw [List.getElem?_append_right (by omega)] at he
    exact ⟨by omega, he⟩

/-- Two waiting entries of the log with one tag are at one place. -/
theorem place_of_tag (hs : Sited config l) {p q : Nat} {e x : ReorderBuffer.Entry}
    (he : (l.history.retired ++ l.history.core.buffer.entries)[p]? = some e)
    (hx : (l.history.retired ++ l.history.core.buffer.entries)[q]? = some x)
    (hew : e.waiting = true) (hxw : x.waiting = true) (ht : e.tag = x.tag) : p = q := by
  obtain ⟨hp, he⟩ := hs.in_buffer he hew
  obtain ⟨hq, hx⟩ := hs.in_buffer hx hxw
  have := place_of_nodup_map hs.located.distinct he hx ht
  omega

/-- What is in the station was installed and has not retired. -/
theorem held_bounds (hs : Sited config l) {p : Nat} (hp : p ∈ l.held) :
    l.history.retired.length ≤ p ∧ p < l.history.installed.length := by
  have hlt : p < l.history.installed.length :=
    List.mem_range.1 (hs.held_sent.subset (List.mem_append_left _ hp))
  have hlog : p < (l.history.retired ++ l.history.core.buffer.entries).length := by
    rw [hs.log_length]
    exact hlt
  have he := List.getElem?_eq_getElem hlog
  exact ⟨(hs.in_buffer he ((hs.sited p _ he).2 (.inl hp))).1, hlt⟩

/-- The result on the bus carries the tag of its instruction. -/
theorem tag_flying (hs : Sited config l) {r : Result} (hb : l.history.core.bus.pending = some r) :
    ∃ q, l.flying = some q ∧ q ∈ l.sent ∧ (l.history.installed.map (·.tag))[q]? = some r.tag := by
  have hlast := congrArg List.getLast? hs.latched
  rw [List.getLast?_map, List.getLast?_map, hs.last r hb, Option.map_some] at hlast
  obtain ⟨q, hq, ht⟩ := Option.map_eq_some_iff.1 hlast.symm
  exact ⟨q, (flying_of_pending hb).trans hq, List.mem_of_getLast? hq, ht⟩

/-! ## What every run keeps -/

theorem start {core : Core} (valid : config.validate = .ok ()) (hf : core.Fresh config) :
    Sited config (Ledger.start core) where
  toTraced := .start valid hf
  located := History.Located.start valid hf
  last := by simp [Ledger.start, History.start, hf.bus, ResultBus.idle]
  sited := by simp [Ledger.start, History.start, hf.buffer, ReorderBuffer.entries_empty]

theorem frame (hs : Sited config l) (latch : Option Instruction) (predictor : Counter)
    (stats : Stats) : Sited config (l.on (l.history.frame latch predictor stats)) where
  toTraced := hs.toTraced.frame _ _ _
  located := hs.located.frame latch predictor stats
  last := hs.last
  sited := hs.sited

theorem broadcast (hs : Sited config l) {r : Result} (hb : l.history.core.bus.pending = some r) :
    Sited config (l.on (l.history.broadcast r)) where
  toTraced := hs.toTraced.broadcast hb
  located := hs.located.broadcast hb
  last := nofun
  sited := by
    intro p e he
    have hheld : (l.on (l.history.broadcast r)).held = l.held :=
      congrArg (List.map l.origin) (Station.holding_wake _ r)
    have hlog : (l.on (l.history.broadcast r)).history.retired ++
        (l.on (l.history.broadcast r)).history.core.buffer.entries =
          (l.history.retired ++ l.history.core.buffer.entries).map fun e =>
            if e.tag = r.tag ∧ e.waiting = true then e.complete r.outcome else e := by
      have hretired : l.history.retired = l.history.retired.map fun e =>
          if e.tag = r.tag ∧ e.waiting = true then e.complete r.outcome else e :=
        (List.map_id _).symm.trans (List.map_congr_left fun e he => by simp [hs.done e he])
      rw [List.map_append, ← hretired]
      exact congrArg _ (ReorderBuffer.entries_complete_of_nodup hs.located.distinct r)
    rw [hlog, List.getElem?_map] at he
    obtain ⟨x, hx, rfl⟩ := Option.map_eq_some_iff.1 he
    obtain ⟨q, hq, hsent, hqt⟩ := hs.tag_flying hb
    have hsite := hs.sited p x hx
    rw [hheld, flying_of_free rfl]
    simp only [reduceCtorEq, or_false]
    split
    · -- the entry that is completed is the one at the place of the result
      rename_i hc
      have hlt : q < (l.history.retired ++ l.history.core.buffer.entries).length := by
        rw [hs.log_length]
        exact hs.lt_of_mem_sent hsent
      have hy := List.getElem?_eq_getElem hlt
      have hyw := (hs.sited q _ hy).2 (.inr hq)
      have hyt := Option.some.inj ((hs.tag_of_log hy).symm.trans hqt)
      obtain rfl := hs.place_of_tag hx hy hc.2 hyw (hc.1.trans hyt.symm)
      refine iff_of_false nofun fun hp => hs.not_sent_of_held hp hsent
    · rename_i hc
      rw [hsite]
      refine or_iff_left fun hp => hc ⟨?_, hsite.2 (.inr hp)⟩
      obtain rfl := Option.some.inj (hq.symm.trans hp)
      exact Option.some.inj ((hs.tag_of_log hx).symm.trans hqt)

theorem leave (hs : Sited config l) {e : ReorderBuffer.Entry} {buffer : ReorderBuffer}
    (hb : l.history.core.buffer.retire = some (e, buffer)) :
    Sited config (l.on (l.history.leave e buffer)) where
  toTraced := hs.toTraced.leave hb
  located := hs.located.leave hb
  last := hs.last
  sited := by
    intro p x hx
    have hlog : (l.history.retired ++ [e]) ++ buffer.entries =
        l.history.retired ++ l.history.core.buffer.entries := by
      rw [(ReorderBuffer.retire_eq_some hb).1, List.append_assoc, List.singleton_append]
    exact hs.sited p x (hlog ▸ hx)

theorem send (hs : Sited config l) {e : Station.Entry} {n : Nat} {station : Station} (o : Outcome)
    (hb : l.history.core.bus.pending = none)
    (ho : l.history.core.station.oldestReady = some (e, n))
    (hi : l.history.core.station.issue = some (e.request, station)) :
    Sited config (l.send e n station o) where
  toTraced := hs.toTraced.send o ho hi
  located := hs.located.send hb hi ho o
  last := by
    intro r hr
    obtain rfl := Option.some.inj hr
    exact List.getLast?_concat
  sited := by
    intro p x hx
    have hfly : (l.send e n station o).flying = some (l.origin n) :=
      (flying_of_pending rfl).trans List.getLast?_concat
    rw [hs.sited p x hx, (held_send o ho hi).mem_iff, List.mem_cons, flying_of_free hb, hfly]
    simp only [reduceCtorEq, or_false, Option.some.injEq]
    rw [or_comm, eq_comm]

theorem install (hs : Sited config l) (valid : config.validate = .ok ()) {i : Instruction}
    (hw : Spaced l.history.core.tags.window ((l.history.installed ++ [i]).map (·.tag)))
    (hd : i.opcode.decode.isSome = true) (hf : l.history.core.station.isFull = false)
    (hb : l.history.core.buffer.isFull = false) : Sited config (l.install i) where
  toTraced := hs.toTraced.install hd hf hb
  located := hs.located.install valid hw hd hf hb
  last := hs.last
  sited := by
    intro p x hx
    have hlog : (l.install i).history.retired ++ (l.install i).history.core.buffer.entries =
        (l.history.retired ++ l.history.core.buffer.entries) ++ [.pending i.opcode i.tag] := by
      rw [List.append_assoc]
      exact congrArg _ (ReorderBuffer.entries_push _ _ _ hb)
    have hfly : (l.install i).flying = l.flying := rfl
    rw [hlog] at hx
    rw [(held_install hs.counted hf i).mem_iff, List.mem_cons, hfly]
    by_cases hp : p < (l.history.retired ++ l.history.core.buffer.entries).length
    · rw [List.getElem?_append_left hp] at hx
      rw [hs.log_length] at hp
      rw [hs.sited p x hx, or_iff_right (show p ≠ l.history.installed.length by omega)]
    · have hlt := (List.getElem?_eq_some_iff.1 hx).1
      rw [List.length_append, List.length_singleton] at hlt
      obtain rfl : p = (l.history.retired ++ l.history.core.buffer.entries).length := by omega
      rw [List.getElem?_concat_length] at hx
      obtain rfl := Option.some.inj hx
      exact iff_of_true rfl (.inl (.inl hs.log_length))

/-- `Sited` is kept by whatever happens in a phase, as long as equal tags are a window apart. -/
theorem kept (valid : config.validate = .ok ()) {tags : TagSpace}
    (ht : config.tagSpace = .ok tags) :
    Kept fun l => Spaced tags.window (l.history.installed.map (·.tag)) → Sited config l where
  frame := fun _ _ _ hs hw => (hs hw).frame _ _ _
  broadcast := fun hb hs hw => (hs hw).broadcast hb
  leave := fun hb hs hw => (hs hw).leave hb
  send := fun o hb ho hi hs hw => (hs hw).send o hb ho hi
  install := by
    intro l i hd hf hb hs hw
    have hw : Spaced tags.window ((l.history.installed ++ [i]).map (·.tag)) := hw
    have hs := hs (List.map_append ▸ hw).of_append
    exact hs.install valid (hs.tags_eq ht ▸ hw) hd hf hb

theorem run {core : Core} (valid : config.validate = .ok ()) (hf : core.Fresh config)
    (calls : List Call) (hw : Spaced core.tags.window
      (((Ledger.start core).run calls).history.installed.map (·.tag))) :
    Sited config ((Ledger.start core).run calls) :=
  (kept valid hf.tags).run calls (fun _ => start valid hf) hw

end Sited

end Ledger

end OutOfOrder
