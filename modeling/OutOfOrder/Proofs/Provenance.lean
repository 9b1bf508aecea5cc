import Mathlib
import OutOfOrder.Proofs.Ledger

/-!
# Where values come from

An operand that was given with its value keeps it, and one that was given waiting has its value from
a result under the tag that it waited for (`Operand.Became`), whether that came over the bus, from
the buffer or from the committed results. The invariant (`Ledger.Traced`) says so for every entry of
the station, and that every request is that of an instruction that was installed and not issued
before. Nothing is asked of the instructions: tags may come twice, and producers may be missing.
-/

namespace OutOfOrder

/-! ## What becomes of an operand -/

/-- How an operand that waits in a slot came from the one that dispatch was given: it is still the
same, or it was waiting and has taken its part of a result that carries its tag. -/
structure Operand.Became (results : List Result) (k : Input) (given now : Operand) : Prop where
  tag : now.tag = given.tag
  ready : given.waiting = false → now = given
  taken : given.waiting = true → now.waiting = false →
    ∃ w ∈ results, w.tag = given.tag ∧ now.value = w.outcome.read k

namespace Operand.Became

variable {results : List Result} {k : Input} {given now : Operand}

theorem refl (results : List Result) (k : Input) (o : Operand) : o.Became results k o where
  tag := rfl
  ready := fun _ => rfl
  taken := fun hw hn => by rw [hw] at hn; cases hn

theorem mono (h : given.Became results k now) (more : List Result) :
    given.Became (results ++ more) k now where
  tag := h.tag
  ready := h.ready
  taken := by
    intro hw hn
    obtain ⟨w, hm, hv⟩ := h.taken hw hn
    exact ⟨w, List.mem_append_left _ hm, hv⟩

/-- A value that is put into a waiting operand is that of a result. -/
theorem fill (h : given.Became results k now) (hw : now.waiting = true) {w : Result}
    (hm : w ∈ results) (ht : w.tag = now.tag) :
    given.Became results k { now with waiting := false, value := w.outcome.read k } where
  tag := h.tag
  ready := by
    intro hg
    rw [h.ready hg, hg] at hw
    cases hw
  taken := fun _ _ => ⟨w, hm, ht.trans h.tag, rfl⟩

theorem resolve (h : given.Became results k now) {r : Result} (hr : r ∈ results) :
    given.Became results k (now.resolve r.tag (r.outcome.read k)).1 := by
  obtain ⟨hw, ht, he⟩ | ⟨-, he⟩ := now.resolve_cases r.tag (r.outcome.read k)
  · rw [he]
    exact h.fill hw hr ht.symm
  · rwa [he]

end Operand.Became

/-! ## Completion where tags may come twice -/

namespace ReorderBuffer

/-- A result is stored with entries of its tag only. -/
theorem mem_complete {b : ReorderBuffer} {r : Result} {e : Entry}
    (h : e ∈ (b.complete r).1.entries) : e ∈ b.entries ∨ e.tag = r.tag ∧ e.outcome = r.outcome := by
  rw [entries_complete] at h
  split at h
  · exact .inl h
  · rename_i i hi
    obtain ⟨hlt, ht, -⟩ := List.findIdx?_eq_some_iff_getElem.1 hi
    obtain ⟨j, hj⟩ := List.mem_iff_getElem?.1 h
    rw [List.getElem?_modify] at hj
    obtain ⟨x, hx, rfl⟩ := Option.map_eq_some_iff.1 hj
    by_cases hij : i = j
    · subst hij
      rw [List.getElem?_eq_getElem hlt] at hx
      obtain rfl := Option.some.inj hx
      by_cases hw : b.entries[i].waiting = true
      · exact .inr (by simpa [hw, Entry.complete] using ht)
      · exact .inl (by simp [hw])
    · exact .inl (by simpa [hij] using List.mem_of_getElem? hx)

end ReorderBuffer

namespace Ledger

/-- Every request is traced to the instruction that it was issued for, and every value that an
instruction was not given to a result that was there before. -/
structure Traced (config : Config) (l : Ledger) : Prop extends
    History.Sound config l.history where
  placed : (l.history.core.station.holding.map l.origin ++ l.sent).Perm
    (List.range l.history.installed.length)
  given : ∀ n e, l.history.core.station.slots[n]? = some e → e.occupied = true →
    ∃ i, l.history.installed[l.origin n]? = some i ∧ i.key = e.instruction.key ∧
      ∀ k, (i.operands.get k).Became l.results k (e.operands.get k)
  latched : l.results.map (fun w => some w.tag) =
    l.sent.map fun p => (l.history.installed.map (·.tag))[p]?
  causal : ∀ m p i k, l.sent[m]? = some p → l.history.installed[p]? = some i →
    (i.operands.get k).waiting = true → ∃ w ∈ l.results.take m, w.tag = (i.operands.get k).tag
  bus : ∀ w, l.history.core.bus.pending = some w → w ∈ l.results
  buffer : ∀ e ∈ l.history.core.buffer.entries, e.waiting = false → ⟨e.tag, e.outcome⟩ ∈ l.results
  committed : ∀ t o, l.history.core.committed.lookup t = some o → ⟨t, o⟩ ∈ l.results

namespace Traced

variable {config : Config} {l : Ledger}

theorem start {core : Core} (valid : config.validate = .ok ()) (hf : core.Fresh config) :
    Traced config (Ledger.start core) where
  toSound := .start valid hf
  placed := by
    have hlive : core.station.live = [] := by simp [hf.station]
    simp [Ledger.start, History.start, Station.holding_eq_nil.2 hlive]
  given := by
    intro n e he ho
    have hm := Station.mem_live_of_getElem? he ho
    simp [Ledger.start, History.start, hf.station] at hm
  latched := rfl
  causal := by simp [Ledger.start]
  bus := by simp [Ledger.start, History.start, hf.bus, ResultBus.idle]
  buffer := by simp [Ledger.start, History.start, hf.buffer, ReorderBuffer.entries_empty]
  committed := by
    simp [Ledger.start, History.start, hf.committed, Committed.empty, Committed.lookup]

theorem length_results (ht : Traced config l) : l.results.length = l.sent.length := by
  simpa using congrArg List.length ht.latched

/-- What was issued was installed. -/
theorem lt_of_mem_sent (ht : Traced config l) {p : Nat} (hp : p ∈ l.sent) :
    p < l.history.installed.length :=
  List.mem_range.1 (ht.placed.subset (List.mem_append_right _ hp))

/-- No instruction is issued twice. -/
theorem nodup_sent (ht : Traced config l) : l.sent.Nodup :=
  (ht.placed.nodup_iff.2 List.nodup_range).of_append_right

/-- What was installed has been issued, or is in the station. -/
theorem sent_or_held (ht : Traced config l) {p : Nat} (hp : p < l.history.installed.length) :
    p ∈ l.sent ∨ l.history.core.station.live ≠ [] := by
  rcases List.mem_append.1 (ht.placed.symm.subset (List.mem_range.2 hp)) with hm | hm
  · refine .inr fun hl => ?_
    rw [Station.holding_eq_nil.2 hl] at hm
    cases hm
  · exact .inl hm

/-- What dispatch finds for a tag is a result that carries it. -/
theorem supply (ht : Traced config l) {t : Tag} {s : Supply}
    (hs : l.history.core.supply? t = some s) : ⟨t, s.outcome⟩ ∈ l.results := by
  unfold Core.supply? at hs
  split at hs
  · rename_i o ho
    obtain rfl := Option.some.inj hs
    obtain ⟨e, he, rfl⟩ := Option.map_eq_some_iff.1 ho
    have hp := List.find?_some he
    simp only [Bool.and_eq_true, beq_iff_eq, Bool.not_eq_true'] at hp
    obtain ⟨rfl, hw⟩ := hp
    exact ht.buffer e (List.mem_of_find?_eq_some he) hw
  · obtain ⟨o, ho, rfl⟩ := Option.map_eq_some_iff.1 hs
    exact ht.committed t o ho

theorem frame (ht : Traced config l) (latch : Option Instruction) (predictor : Counter)
    (stats : Stats) : Traced config (l.on (l.history.frame latch predictor stats)) :=
  ⟨ht.toSound.frame _ _ _, ht.placed, ht.given, ht.latched, ht.causal, ht.bus, ht.buffer,
    ht.committed⟩

theorem broadcast (ht : Traced config l) {r : Result} (hb : l.history.core.bus.pending = some r) :
    Traced config (l.on (l.history.broadcast r)) := by
  have hr := ht.bus r hb
  refine ⟨ht.toSound.broadcast r, ?_, fun n e he ho => ?_, ht.latched, ht.causal, nofun,
    fun e he hw => ?_, ht.committed⟩
  · have := ht.placed
    rwa [← Station.holding_wake _ r] at this
  · have he : (l.history.core.station.wake r).1.slots[n]? = some e := he
    rw [Station.slots_wake, List.getElem?_map] at he
    obtain ⟨e0, he0, rfl⟩ := Option.map_eq_some_iff.1 he
    rw [Station.Entry.occupied_wake] at ho
    obtain ⟨i, hi, hk, hops⟩ := ht.given n e0 he0 ho
    refine ⟨i, hi, ?_, fun k => ?_⟩
    · rw [hk]
      simp [Instruction.key, Station.Entry.instruction]
    · rw [Station.Entry.get_wake ho]
      exact (hops k).resolve hr
  · rcases ReorderBuffer.mem_complete he with he | ⟨htag, hout⟩
    · exact ht.buffer e he hw
    · rw [htag, hout]
      exact hr

theorem leave (ht : Traced config l) {e : ReorderBuffer.Entry} {buffer : ReorderBuffer}
    (hb : l.history.core.buffer.retire = some (e, buffer)) :
    Traced config (l.on (l.history.leave e buffer)) := by
  obtain ⟨he, hw, -⟩ := ReorderBuffer.retire_eq_some hb
  refine ⟨ht.toSound.leave hb, ht.placed, ht.given, ht.latched, ht.causal, ht.bus,
    fun x hx => ?_, fun t o ho => ?_⟩
  · exact ht.buffer x (he ▸ List.mem_cons_of_mem _ hx)
  · have ho : (l.history.core.committed.commit e.tag e.outcome).lookup t = some o := ho
    rw [Committed.lookup_commit] at ho
    split at ho
    · rename_i hte
      obtain rfl := Option.some.inj ho
      rw [hte]
      exact ht.buffer e (he ▸ List.mem_cons_self) hw
    · exact ht.committed t o ho

theorem send (ht : Traced config l) {e : Station.Entry} {n : Nat} {station : Station} (o : Outcome)
    (ho : l.history.core.station.oldestReady = some (e, n))
    (hi : l.history.core.station.issue = some (e.request, station)) :
    Traced config (l.send e n station o) := by
  obtain ⟨hready, hn, hne⟩ := Station.oldestReady_mem ho
  have hocc := Station.Entry.occupied_of_ready hready
  have hslots := Station.slots_issue ho hi
  obtain ⟨j, hj, hkey, hops⟩ := ht.given n e (by rw [List.getElem?_eq_getElem hn, hne]) hocc
  refine ⟨ht.toSound.send hi o, ?_, fun m x hx hxo => ?_, ?_, ?_, ?_, ?_, ?_⟩
  · have hp := ((Station.holding_issue ho hi).map l.origin).append_right l.sent
    have := hp.symm.trans ht.placed
    refine List.Perm.trans ?_ this
    rw [List.map_cons, List.cons_append]
    exact (List.append_assoc .. ▸ List.perm_append_singleton ..)
  · have hx : station.slots[m]? = some x := hx
    have hmn : n ≠ m := by
      rintro rfl
      rw [hslots, List.getElem?_set_self hn] at hx
      obtain rfl := Option.some.inj hx
      cases hxo
    rw [hslots, List.getElem?_set_ne hmn] at hx
    obtain ⟨i, hi, hk, hops⟩ := ht.given m x hx hxo
    exact ⟨i, hi, hk, fun k => (hops k).mono _⟩
  · have hjt : (l.history.installed.map (·.tag))[l.origin n]? = some e.tag := by
      rw [List.getElem?_map, hj]
      exact congrArg (fun key => some key.1) hkey
    change (l.results ++ [_]).map _ = (l.sent ++ [_]).map _
    rw [List.map_append, List.map_append, ht.latched]
    exact congrArg _ (congrArg (fun x => [x]) hjt.symm)
  · intro m p i k hm hp hw
    have hm : (l.sent ++ [l.origin n])[m]? = some p := hm
    rw [show (l.send e n station o).results = l.results ++ [⟨e.tag, o⟩] from rfl]
    have hlen := ht.length_results
    by_cases hlt : m < l.sent.length
    · rw [List.getElem?_append_left hlt] at hm
      rw [List.take_append_of_le_length (by omega)]
      exact ht.causal m p i k hm hp hw
    · -- the instruction that is issued now has all its operands
      obtain ⟨hlt', hm⟩ := List.getElem?_eq_some_iff.1 hm
      rw [List.length_append, List.length_singleton] at hlt'
      obtain rfl : m = l.sent.length := by omega
      rw [List.getElem_concat_length (by rfl)] at hm
      subst hm
      rw [show (l.send e n station o).history.installed = l.history.installed from rfl, hj] at hp
      obtain rfl := Option.some.inj hp
      obtain ⟨w, hwm, hwt, -⟩ := (hops k).taken hw ((Station.Entry.ready_iff hocc).1 hready k)
      rw [List.take_append_of_le_length (by omega), List.take_of_length_le (by omega)]
      exact ⟨w, hwm, hwt⟩
  · intro w hw
    obtain rfl := Option.some.inj hw
    exact List.mem_append_right _ List.mem_cons_self
  · exact fun x hx hw => List.mem_append_left _ (ht.buffer x hx hw)
  · exact fun t o ho => List.mem_append_left _ (ht.committed t o ho)

theorem install (ht : Traced config l) {i : Instruction} (hd : i.opcode.decode.isSome = true)
    (hf : l.history.core.station.isFull = false) (hb : l.history.core.buffer.isFull = false) :
    Traced config (l.install i) := by
  obtain ⟨hn, -, hslots⟩ := Station.slots_push ht.counted hf (l.history.core.resolved i)
  obtain ⟨hfree, hholding⟩ := Station.holding_push ht.counted hf (l.history.core.resolved i)
  have hold : ∀ p, p < l.history.installed.length →
      (l.install i).history.installed[p]? = l.history.installed[p]? := fun p hp =>
    List.getElem?_append_left hp
  refine ⟨ht.toSound.install hd hf hb, ?_, fun n e he ho => ?_, ?_, fun m p j k hm hp hw => ?_,
    ht.bus, fun e he hw => ?_, fun t o ho => ?_⟩
  · have hmap : (l.history.core.station.holding.map l.fill) =
        l.history.core.station.holding.map l.origin :=
      List.map_congr_left fun n hn =>
        Function.update_of_ne (by rintro rfl; exact hfree hn) _ _
    have hself : l.fill l.history.core.station.freeSlot = l.history.installed.length :=
      Function.update_self ..
    have hp := (hholding.map l.fill).append_right l.sent
    rw [List.map_cons, hself, hmap] at hp
    refine List.Perm.trans hp ?_
    change (_ :: (_ ++ _)).Perm (List.range (l.history.installed ++ [i]).length)
    rw [List.length_append, List.length_singleton, List.range_succ]
    exact (ht.placed.cons _).trans (List.perm_append_singleton _ _).symm
  · have he : ((l.history.core.station.push (l.history.core.resolved i)).1).slots[n]? = some e := he
    rw [hslots] at he
    by_cases hnf : n = l.history.core.station.freeSlot
    · subst hnf
      rw [List.getElem?_set_self hn] at he
      obtain rfl := Option.some.inj he
      refine ⟨i, ?_, rfl, fun k => ?_⟩
      · change (l.history.installed ++ [i])[l.fill _]? = some i
        rw [fill, Function.update_self, List.getElem?_concat_length]
      · change (i.operands.get k).Became l.results k ((l.history.core.resolved i).operands.get k)
        rw [Core.get_resolved]
        have hrefl := Operand.Became.refl l.results k (i.operands.get k)
        obtain ⟨-, hr⟩ | ⟨-, -, hr⟩ | ⟨s, hw, hs, hr⟩ :=
          l.history.core.resolve_cases k (i.operands.get k)
        · rwa [hr]
        · rwa [hr]
        · rw [hr]
          exact hrefl.fill hw (ht.supply hs) rfl
    · rw [List.getElem?_set_ne (Ne.symm hnf)] at he
      obtain ⟨j, hj, hk, hops⟩ := ht.given n e he ho
      refine ⟨j, ?_, hk, hops⟩
      rw [show (l.install i).origin n = l.origin n from Function.update_of_ne hnf _ _,
        hold _ (List.getElem?_eq_some_iff.1 hj).1, hj]
  · refine ht.latched.trans (List.map_congr_left fun p hp => ?_)
    rw [List.getElem?_map, List.getElem?_map, hold p (ht.lt_of_mem_sent hp)]
  · rw [hold p (ht.lt_of_mem_sent (List.mem_of_getElem? hm))] at hp
    exact ht.causal m p j k hm hp hw
  · have he : e ∈ (l.history.core.buffer.push i.opcode i.tag).1.entries := he
    rw [ReorderBuffer.entries_push _ _ _ hb] at he
    rcases List.mem_append.1 he with he | he
    · exact ht.buffer e he hw
    · rw [List.mem_singleton.1 he] at hw
      cases hw
  · have ho : (l.history.core.committed.reclaim i.tag).lookup t = some o := ho
    rw [Committed.lookup_reclaim] at ho
    split at ho
    · cases ho
    · exact ht.committed t o ho

end Traced

end Ledger

end OutOfOrder
