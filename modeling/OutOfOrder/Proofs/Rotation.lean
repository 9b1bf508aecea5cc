import Mathlib
import OutOfOrder.Proofs.Ledger
import OutOfOrder.Proofs.Symmetry

/-!
# Going round the tags

The tags of a space are a circle, and where it is cut does not matter: a run in which every tag is
so many steps further on goes exactly like the run before, with every tag as many steps further on
(`rotation_symmetric`). Rotations are faithful because distances stay what they are
(`TagSpace.distance_rotate`), and any faithful renaming takes runs to runs
(`Ledger.Renamed.run`).

What is left of old tags in the slots of the station is not looked at, but can be told: a tag was
renamed if it came with an operand that was waiting (`Ledger.Filled`).
-/

namespace OutOfOrder

/-! ## Rotations -/

namespace TagSpace

/-- The tag that is `k` steps further on. -/
def rotate (s : TagSpace) (k : Nat) (t : Tag) : Tag := s.tag (t.index + k)

theorem Names.lt {s : TagSpace} {t : Tag} (h : s.Names t) : t.index < s.size := by
  simpa [Names, contains] using h

variable (s : TagSpace) (k : Nat)

theorem add_mod_size {n : Nat} (h : n < s.size) :
    (n + k) % s.size =
      if n + k % s.size < s.size then n + k % s.size else n + k % s.size - s.size := by
  have hk := Nat.mod_lt k s.size_pos
  rw [← Nat.add_mod_mod]
  split
  · rename_i hlt
    exact Nat.mod_eq_of_lt hlt
  · rw [Nat.mod_eq_sub_mod (by omega), Nat.mod_eq_of_lt (by omega)]

/-- The way from one tag to another is as long for the rotated ones. -/
theorem distance_rotate {a b : Tag} (ha : s.Names a) (hb : s.Names b) :
    s.distance (s.rotate k a) (s.rotate k b) = s.distance a b := by
  have ha := ha.lt
  have hb := hb.lt
  have hk := Nat.mod_lt k s.size_pos
  have hsize := s.size_le
  unfold distance rotate
  rw [index_tag, index_tag, add_mod_size s k ha, add_mod_size s k hb]
  split <;> split
  · congr 1
    omega
  · refine Eq.trans ?_ (Nat.add_mod_right _ _)
    congr 1
    omega
  · refine (Nat.add_mod_right _ _).symm.trans ?_
    congr 1
    omega
  · congr 1
    omega

theorem rotate_inj {a b : Tag} (ha : s.Names a) (hb : s.Names b)
    (h : s.rotate k a = s.rotate k b) : a = b := by
  have ha := ha.lt
  have hb := hb.lt
  have hk := Nat.mod_lt k s.size_pos
  rw [rotate, rotate, ← Tag.index_inj, index_tag, index_tag, add_mod_size s k ha,
    add_mod_size s k hb] at h
  rw [← Tag.index_inj]
  split at h <;> split at h <;> omega

theorem faithful_rotate : s.Faithful (s.rotate k) where
  inj := s.rotate_inj k
  older := by
    intro a b ha hb
    rw [older, older, s.distance_rotate k ha hb]

end TagSpace

/-! ## What is left in the slots -/

namespace Ledger

/-- Whatever is in a slot, used or freed, has the tags of the instruction that was last put there,
unless none ever was. -/
structure Filled (config : Config) (l : Ledger) : Prop extends History.Sound config l.history where
  slots : ∀ n e, l.history.core.station.slots[n]? = some e →
    e = default ∨ e.opcode.decode.isSome = true ∧
      ∃ i, l.history.installed[l.origin n]? = some i ∧ i.tag = e.tag ∧
        ∀ k, (e.operands.get k).tag = (i.operands.get k).tag

namespace Filled

variable {config : Config} {l : Ledger}

theorem start {core : Core} (valid : config.validate = .ok ()) (hf : core.Fresh config) :
    Filled config (Ledger.start core) where
  toSound := .start valid hf
  slots := by
    intro n e he
    have hm : e ∈ core.station.slots := List.mem_of_getElem? he
    rw [hf.station] at hm
    exact .inl (List.mem_replicate.1 hm).2

theorem broadcast (h : Filled config l) (r : Result) :
    Filled config (l.on (l.history.broadcast r)) := by
  refine ⟨h.toSound.broadcast r, fun n e he => ?_⟩
  have he : (l.history.core.station.wake r).1.slots[n]? = some e := he
  rw [Station.slots_wake, List.getElem?_map] at he
  obtain ⟨e, he0, rfl⟩ := Option.map_eq_some_iff.1 he
  cases ho : e.occupied with
  | false =>
    have : (e.wake r).1 = e := by simp [Station.Entry.wake, ho]
    rw [this]
    exact h.slots n e he0
  | true =>
    obtain rfl | ⟨hd, i, hi, ht, hops⟩ := h.slots n e he0
    · cases ho
    · refine .inr ⟨by rwa [Station.Entry.opcode_wake], i, hi, by rwa [Station.Entry.tag_wake],
        fun k => ?_⟩
      rw [Station.Entry.get_wake ho, ← hops k]
      obtain ⟨-, -, hr⟩ | ⟨-, hr⟩ := (e.operands.get k).resolve_cases r.tag (r.outcome.read k)
      · rw [hr]
      · rw [hr]

theorem send (h : Filled config l) {e : Station.Entry} {n : Nat} {station : Station} (o : Outcome)
    (ho : l.history.core.station.oldestReady = some (e, n))
    (hi : l.history.core.station.issue = some (e.request, station)) :
    Filled config (l.send e n station o) := by
  refine ⟨h.toSound.send hi o, fun m x hx => ?_⟩
  obtain ⟨hready, hn, hne⟩ := Station.oldestReady_mem ho
  have hx : station.slots[m]? = some x := hx
  rw [Station.slots_issue ho hi] at hx
  by_cases hmn : n = m
  · subst hmn
    rw [List.getElem?_set_self hn] at hx
    obtain rfl := Option.some.inj hx
    obtain rfl | he := h.slots n e (by rw [List.getElem?_eq_getElem hn, hne])
    · cases hready
    · exact .inr he
  · rw [List.getElem?_set_ne hmn] at hx
    exact h.slots m x hx

theorem install (h : Filled config l) {i : Instruction} (hd : i.opcode.decode.isSome = true)
    (hf : l.history.core.station.isFull = false) (hb : l.history.core.buffer.isFull = false) :
    Filled config (l.install i) := by
  obtain ⟨hn, -, hslots⟩ := Station.slots_push h.counted hf (l.history.core.resolved i)
  refine ⟨h.toSound.install hd hf hb, fun n e he => ?_⟩
  have he : ((l.history.core.station.push (l.history.core.resolved i)).1).slots[n]? = some e := he
  change e = default ∨ _ ∧ ∃ j, (l.history.installed ++ [i])[l.fill n]? = some j ∧ _
  rw [hslots] at he
  by_cases hnf : n = l.history.core.station.freeSlot
  · subst hnf
    rw [List.getElem?_set_self hn] at he
    obtain rfl := Option.some.inj he
    refine .inr ⟨hd, i, ?_, rfl, fun k => ?_⟩
    · rw [fill, Function.update_self, List.getElem?_concat_length]
    · change ((l.history.core.resolved i).operands.get k).tag = _
      rw [Core.get_resolved]
      obtain ⟨-, hr⟩ | ⟨-, -, hr⟩ | ⟨s, -, -, hr⟩ :=
        l.history.core.resolve_cases k (i.operands.get k)
      · rw [hr]
      · rw [hr]
      · rw [hr]
  · rw [List.getElem?_set_ne (Ne.symm hnf)] at he
    obtain hnew | ⟨hde, j, hj, ht, hops⟩ := h.slots n e he
    · exact .inl hnew
    · refine .inr ⟨hde, j, ?_, ht, hops⟩
      rw [fill, Function.update_of_ne hnf,
        List.getElem?_append_left (List.getElem?_eq_some_iff.1 hj).1, hj]

theorem kept : Kept (Filled config) where
  frame := fun _ _ _ h => ⟨h.toSound.frame _ _ _, h.slots⟩
  broadcast := fun _ h => h.broadcast _
  leave := fun hb h => ⟨h.toSound.leave hb, h.slots⟩
  send := fun o _ ho hi h => h.send o ho hi
  install := fun hd hf hb h => h.install hd hf hb

end Filled

end Ledger

/-! ## Runs -/

def Call.rename (f : Tag → Tag) : Call → Call
  | dispatch i => dispatch (i.rename f)
  | step source => step (source.map (Instruction.rename f))

/-- The instructions of a call keep to the tags of the space. -/
def Call.Within (s : TagSpace) : Call → Prop
  | dispatch i => i.Within s
  | step source => ∀ i ∈ source, i.Within s

instance (s : TagSpace) : (c : Call) → Decidable (c.Within s)
  | .dispatch i => inferInstanceAs (Decidable (i.Within s))
  | .step source => inferInstanceAs (Decidable (∀ i ∈ source, i.Within s))

/-- Runs that went the same way up to the names. -/
structure Ledger.Renamed (s : TagSpace) (f : Tag → Tag) (l l' : Ledger) : Prop where
  core : l.history.core.Renamed s f l'.history.core
  installed : l'.history.installed = l.history.installed.map (Instruction.rename f)
  issued : l'.history.issued = l.history.issued.map (Request.rename f)
  retired : l'.history.retired = l.history.retired.map (ReorderBuffer.Entry.rename f)
  origin : l'.origin = l.origin

namespace Ledger.Renamed

variable {s : TagSpace} {f : Tag → Tag} {l l' : Ledger}

/-- Both put the next instruction into the same slot. -/
theorem fill (h : l.Renamed s f l') : l'.fill = l.fill := by
  have hfree : l'.history.core.station.freeSlot = l.history.core.station.freeSlot := by
    rw [Station.freeSlot, Station.freeSlot, h.core.station.findIdx?_free]
  rw [Ledger.fill, Ledger.fill, h.origin, hfree, h.installed, List.length_map]

theorem early (h : l.Renamed s f l') (hf : s.Faithful f) : l.early.Renamed s f l'.early := by
  obtain ⟨hissued, -, hrequests⟩ := (h.core.settled hf).issue hf
  refine ⟨hissued, h.installed, ?_, ?_, h.origin⟩
  · change l'.history.issued ++ l'.history.core.settled.issue.events.filterMap Event.request? =
      (l.history.issued ++ l.history.core.settled.issue.events.filterMap Event.request?).map _
    rw [hrequests, h.issued, List.map_append]
  · change l'.history.retired ++ l'.history.core.begun.deliver.core.retire.answer.toList =
      (l.history.retired ++ l.history.core.begun.deliver.core.retire.answer.toList).map _
    rw [h.core.retired hf, h.retired, List.map_append, Option.toList_map]

theorem dispatch (h : l.Renamed s f l') (hf : s.Faithful f) {i : Instruction} (hi : i.Within s) :
    (l.call (.dispatch i)).Renamed s f (l'.call (.dispatch (i.rename f))) := by
  obtain ⟨hcore, hanswer⟩ := h.core.dispatch hf hi
  have hinst : (l'.history.core.dispatch (i.rename f)).installs =
      (l.history.core.dispatch i).installs := by
    unfold Core.After.installs
    rw [hanswer]
    cases (l.history.core.dispatch i).answer with
    | error e => rfl
    | ok stall => cases stall <;> rfl
  refine ⟨hcore, ?_, h.issued, h.retired, ?_⟩
  · change l'.history.installed ++
        (if (l'.history.core.dispatch (i.rename f)).installs then [i.rename f] else []) =
      (l.history.installed ++ if (l.history.core.dispatch i).installs then [i] else []).map _
    rw [hinst, h.installed, List.map_append]
    split <;> rfl
  · change (if (l'.history.core.dispatch (i.rename f)).installs then l'.fill else l'.origin) =
      if (l.history.core.dispatch i).installs then l.fill else l.origin
    rw [hinst, h.fill, h.origin]

theorem step (h : l.Renamed s f l') (hf : s.Faithful f) {source : List Instruction}
    (hsource : ∀ i ∈ source, i.Within s) :
    (l.call (.step source)).Renamed s f
      (l'.call (.step (source.map (Instruction.rename f)))) := by
  have hstep := h.core.step hf hsource
  have hinst : (l'.history.core.step (source.map (Instruction.rename f))).installs =
      (l.history.core.step source).installs := by
    unfold Core.Cycle.installs
    rw [hstep.outcome]
    cases (l.history.core.step source).outcome with
    | error e => rfl
    | ok report => exact Option.isSome_map
  refine ⟨hstep.core, ?_, ?_, ?_, ?_⟩
  · change l'.history.installed ++
        (if (l'.history.core.step (source.map (Instruction.rename f))).installs then
          (l'.history.core.offered (source.map (Instruction.rename f))).toList else []) =
      (l.history.installed ++ if (l.history.core.step source).installs then
        (l.history.core.offered source).toList else []).map _
    rw [hinst, h.installed, h.core.offered, List.map_append]
    split
    · rw [Option.toList_map]
    · rfl
  · change l'.history.issued ++ _ = (l.history.issued ++ _).map _
    rw [hstep.issued, h.issued, List.map_append]
  · change l'.history.retired ++ _ = (l.history.retired ++ _).map _
    rw [hstep.retired, h.retired, List.map_append, Option.toList_map]
  · change (if (l'.history.core.step (source.map (Instruction.rename f))).installs then
        l'.early.fill else l'.origin) =
      if (l.history.core.step source).installs then l.early.fill else l.origin
    rw [hinst, (h.early hf).fill, h.origin]

theorem call (h : l.Renamed s f l') (hf : s.Faithful f) {c : Call} (hc : c.Within s) :
    (l.call c).Renamed s f (l'.call (c.rename f)) := by
  cases c with
  | dispatch i => exact h.dispatch hf hc
  | step source => exact h.step hf hc

theorem run (h : l.Renamed s f l') (hf : s.Faithful f) {calls : List Call}
    (hc : ∀ c ∈ calls, c.Within s) :
    (l.run calls).Renamed s f (l'.run (calls.map (Call.rename f))) := by
  induction calls generalizing l l' with
  | nil => exact h
  | cons c calls ih =>
    exact ih (h.call hf (hc c List.mem_cons_self)) fun d hd => hc d (List.mem_cons_of_mem _ hd)

/-- Of the tags in a slot, the old one of an operand that was given with its value stays; all
others are renamed. -/
theorem slot_tags {config : Config} (h : l.Renamed s f l') (hl : Filled config l)
    (hl' : Filled config l') {n : Nat} {e e' : Station.Entry}
    (he : l.history.core.station.slots[n]? = some e)
    (he' : l'.history.core.station.slots[n]? = some e') :
    (e = default ∧ e' = default) ∨
      ∃ i, l.history.installed[l.origin n]? = some i ∧ e'.tag = f e.tag ∧
        ∀ k, (e'.operands.get k).tag =
          if (i.operands.get k).waiting then f (e.operands.get k).tag
          else (e.operands.get k).tag := by
  have hopcode : e'.opcode = e.opcode := (getElem?_of_forall₂ h.core.station.slots he he').opcode
  obtain rfl | ⟨hd, i, hi, ht, hops⟩ := hl.slots n e he
  · obtain rfl | ⟨hd', -⟩ := hl'.slots n e' he'
    · exact .inl ⟨rfl, rfl⟩
    · rw [hopcode] at hd'
      cases hd'
  · obtain rfl | ⟨-, i', hi', ht', hops'⟩ := hl'.slots n e' he'
    · rw [← hopcode] at hd
      cases hd
    · rw [h.installed, h.origin, List.getElem?_map, hi] at hi'
      obtain rfl := Option.some.inj hi'
      refine .inr ⟨i, hi, ?_, fun k => ?_⟩
      · rw [← ht', ← ht]
        rfl
      · rw [hops', hops, Instruction.rename, Operands.get_map, Operand.rename]
        split <;> rfl

end Ledger.Renamed

/-! ## Where the circle is cut does not matter -/

/-- For any run whose tags are tags of the space, the run in which each of them is `d` steps further
on is the same with tags `d` steps further on: in both, every call is answered alike, the same
instructions are installed, issued and retired, and all parts of the core agree, counters included.
In the slots of the station, a tag that came with a value is the same in both, and any other is `d`
steps further on. -/
theorem rotation_symmetric {config : Config} (valid : config.validate = .ok ()) :
    ∃ core, Core.ofConfig config = .ok core ∧
      ∀ d calls, (∀ c ∈ calls, c.Within core.tags) →
        let turn := core.tags.rotate d
        let l := (Ledger.start core).run calls
        let l' := (Ledger.start core).run (calls.map (Call.rename turn))
        l.history = (History.start core).run calls ∧
          l'.history = (History.start core).run (calls.map (Call.rename turn)) ∧
          l.Renamed core.tags turn l' ∧
          (∀ n e e', l.history.core.station.slots[n]? = some e →
            l'.history.core.station.slots[n]? = some e' →
            (e = default ∧ e' = default) ∨
              ∃ i, l.history.installed[l.origin n]? = some i ∧ e'.tag = turn e.tag ∧
                ∀ k, (e'.operands.get k).tag =
                  if (i.operands.get k).waiting then turn (e.operands.get k).tag
                  else (e.operands.get k).tag) ∧
          (∀ i, i.Within core.tags →
            (l'.history.core.dispatch (i.rename turn)).answer =
              Core.renameAnswer turn id (l.history.core.dispatch i).answer) ∧
          ∀ source, (∀ i ∈ source, i.Within core.tags) →
            (l.history.core.step source).Renamed core.tags turn
              (l'.history.core.step (source.map (Instruction.rename turn))) := by
  obtain ⟨core, hcore, hfresh⟩ := Core.ofConfig_fresh valid
  refine ⟨core, hcore, ?_⟩
  intro d calls hcalls turn l l'
  have hf : core.tags.Faithful turn := core.tags.faithful_rotate d
  have hstart : (Ledger.start core).Renamed core.tags turn (Ledger.start core) :=
    ⟨hfresh.renamed, rfl, rfl, rfl, rfl⟩
  have hrun : l.Renamed core.tags turn l' := hstart.run hf hcalls
  have hl : Ledger.Filled config l := Ledger.Filled.kept.run _ (.start valid hfresh)
  have hl' : Ledger.Filled config l' := Ledger.Filled.kept.run _ (.start valid hfresh)
  refine ⟨Ledger.history_run _ _, Ledger.history_run _ _, hrun, ?_, ?_, ?_⟩
  · intro n e e' he he'
    exact hrun.slot_tags hl hl' he he'
  · intro i hi
    exact (hrun.core.dispatch hf hi).2
  · intro source hsource
    exact hrun.core.step hf hsource

/-- Six steps further on in a space of eight, the third tag comes before the first two as a number,
but is still the youngest. Two instructions have the second tag, and one waits for the third. -/
theorem rotation_symmetric_wrap :
    ∃ core, Core.ofConfig { bufferEntries := 5, tagBits := 3 } = .ok core ∧
      let i n a := Instruction.of (.alu .add) n a (.ready 2) (.ready 0)
      let calls := [.dispatch (i 0 (.ready 1)), .dispatch (i 1 (.waitingOn ⟨0⟩)),
        .dispatch (i 2 (.waitingOn ⟨0⟩)), .dispatch (i 1 (.waitingOn ⟨2⟩)), .step [], .step []]
      let turn := core.tags.rotate 6
      let l := (Ledger.start core).run calls
      let l' := (Ledger.start core).run (calls.map (Call.rename turn))
      (∀ c ∈ calls, c.Within core.tags) ∧ l.Renamed core.tags turn l' ∧
        (l.history.core.step []).outcome =
          .ok ⟨3, some ⟨1⟩, some ⟨1⟩, some ⟨2⟩, none, none⟩ ∧
        (l'.history.core.step []).outcome =
          .ok ⟨3, some ⟨7⟩, some ⟨7⟩, some ⟨0⟩, none, none⟩ := by
  obtain ⟨core, hc, h⟩ := rotation_symmetric
    (show Config.validate { bufferEntries := 5, tagBits := 3 } = .ok () by decide)
  obtain rfl := Except.ok.inj (hc.symm.trans rfl)
  refine ⟨_, hc, ?_⟩
  intro i calls turn l l'
  have hcalls : ∀ c ∈ calls, c.Within ⟨3, by decide, by decide⟩ := by decide
  have hreport : (l.history.core.step []).outcome =
      .ok ⟨3, some ⟨1⟩, some ⟨1⟩, some ⟨2⟩, none, none⟩ := by decide +kernel
  obtain ⟨-, -, hrun, -, -, hstep⟩ := h 6 calls hcalls
  refine ⟨hcalls, hrun, hreport, ?_⟩
  have hturned := (hstep [] nofun).outcome
  rw [hreport] at hturned
  exact hturned.trans (by decide +kernel)

end OutOfOrder
