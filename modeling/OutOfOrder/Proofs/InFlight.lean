import Mathlib
import OutOfOrder.Proofs.Contract
import OutOfOrder.Proofs.History
import OutOfOrder.Proofs.Records
import OutOfOrder.Proofs.ReorderBuffer

/-!
# Where an instruction in flight is

`Sound` is what every run keeps, whatever it is fed: retired entries and buffer entries together
are the instructions installed, in order. If equal tags are a window apart, the buffer is a
stretch of them that is too short for a tag to come twice, and `Located` holds: an entry waits
exactly as long as its instruction is in the station or its result on the bus, and the committed
results are those of the tags that have left the buffer. So a broadcast always finds its entry
(`Located.completes`), and dispatch finds the latest outcome under a tag (`Located.supply?_eq`).
-/

namespace OutOfOrder

open ReorderBuffer (latest)

namespace History

/-! ## What every run keeps -/

/-- The sizes and tags are those of the configuration, and no instruction is lost or out of turn. -/
structure Sound (config : Config) (h : History) : Prop where
  tags : config.tagSpace = .ok h.core.tags
  stationSize : h.core.station.capacity = config.stationEntries
  bufferSize : h.core.buffer.capacity = config.bufferEntries
  counted : h.core.station.Counted
  decodes : ∀ e ∈ h.core.station.live, e.opcode.decode.isSome = true
  log : (h.retired ++ h.core.buffer.entries).map (·.key) = h.installed.map (·.key)
  done : ∀ e ∈ h.retired, e.waiting = false

namespace Sound

variable {config : Config} {h : History}

theorem start {core : Core} (valid : config.validate = .ok ()) (hf : core.Fresh config) :
    Sound config (History.start core) where
  tags := hf.tags
  stationSize := by simp [History.start, hf.station, Station.empty, Station.capacity]
  bufferSize := by
    have := (Config.validate_eq_ok valid).2.1
    simp [History.start, hf.buffer, ReorderBuffer.empty, ReorderBuffer.capacity, this]
  counted := by
    simp only [History.start, hf.station]
    exact Station.counted_empty _ _
  decodes := by simp [History.start, hf.station]
  log := by simp [History.start, hf.buffer, ReorderBuffer.entries_empty]
  done := by simp [History.start]

theorem frame (hs : Sound config h) (latch : Option Instruction) (predictor : Counter)
    (stats : Stats) : Sound config (h.frame latch predictor stats) :=
  ⟨hs.tags, hs.stationSize, hs.bufferSize, hs.counted, hs.decodes, hs.log, hs.done⟩

theorem broadcast (hs : Sound config h) (r : Result) : Sound config (h.broadcast r) where
  tags := hs.tags
  stationSize := (Station.capacity_wake _ _).trans hs.stationSize
  bufferSize := (ReorderBuffer.capacity_complete _ _).trans hs.bufferSize
  counted := Station.counted_wake hs.counted r
  decodes := by
    intro e he
    obtain ⟨e0, he0, rfl⟩ := List.mem_map.1 (Station.live_wake _ r ▸ he)
    rw [Station.Entry.opcode_wake]
    exact hs.decodes e0 he0
  log := by
    refine Eq.trans ?_ hs.log
    rw [List.map_append, List.map_append]
    exact congrArg _ (ReorderBuffer.map_key_complete _ _)
  done := hs.done

theorem leave (hs : Sound config h) {e : ReorderBuffer.Entry} {buffer : ReorderBuffer}
    (hb : h.core.buffer.retire = some (e, buffer)) : Sound config (h.leave e buffer) := by
  obtain ⟨he, hw, hc⟩ := ReorderBuffer.retire_eq_some hb
  refine ⟨hs.tags, hs.stationSize, hc.trans hs.bufferSize, hs.counted, hs.decodes, ?_, ?_⟩
  · refine Eq.trans ?_ hs.log
    rw [he]
    simp [History.leave]
  · intro x hx
    rcases List.mem_append.1 hx with hx | hx
    · exact hs.done x hx
    · rw [List.mem_singleton.1 hx]
      exact hw

theorem send (hs : Sound config h) {e : Station.Entry} {station : Station}
    (hi : h.core.station.issue = some (e.request, station)) (o : Outcome) :
    Sound config (h.send e station o) := by
  obtain ⟨e0, -, -, -, -, -, hl, hcap, htags, hc⟩ := Station.issue_eq_some hi
  refine ⟨?_, hcap.trans hs.stationSize, hs.bufferSize, hc hs.counted, fun x hx => ?_, hs.log,
    hs.done⟩
  · rw [hs.tags]
    exact congrArg _ htags.symm
  · exact hs.decodes x (hl.symm.subset (List.mem_cons_of_mem _ hx))

theorem install (hs : Sound config h) {i : Instruction} (hd : i.opcode.decode.isSome = true)
    (hf : h.core.station.isFull = false) (hb : h.core.buffer.isFull = false) :
    Sound config (h.install i) := by
  refine ⟨?_, (Station.capacity_push _ _).trans hs.stationSize,
    (ReorderBuffer.capacity_push _ _ _).trans hs.bufferSize,
    Station.counted_push hs.counted hf _, fun x hx => ?_, ?_, hs.done⟩
  · rw [hs.tags]
    exact congrArg _ (Station.tags_push _ _).symm
  · rcases List.mem_cons.1 ((Station.live_push hs.counted hf _).subset hx) with rfl | hx
    · exact hd
    · exact hs.decodes x hx
  · have hl : (h.install i).core.buffer.entries =
        h.core.buffer.entries ++ [.pending i.opcode i.tag] := ReorderBuffer.entries_push _ _ _ hb
    have hr : (h.install i).retired = h.retired := rfl
    have hi : (h.install i).installed = h.installed ++ [i] := rfl
    rw [hl, hr, hi, ← List.append_assoc, List.map_append, hs.log, List.map_append]
    rfl

theorem kept : Kept (fun _ => True) (Sound config) where
  closed := fun _ => trivial
  frame := fun _ _ _ hs => hs.frame _ _ _
  broadcast := fun _ _ hs => hs.broadcast _
  leave := fun _ hb hs => hs.leave hb
  send := fun _ _ _ hi _ hs => hs.send hi _
  install := fun _ hd hf hb hs => hs.install hd hf hb

/-- Every run keeps `Sound`. -/
theorem run {core : Core} (valid : config.validate = .ok ()) (hf : core.Fresh config)
    (calls : List Call) : Sound config ((History.start core).run calls) :=
  kept.run calls trivial (start valid hf)

theorem tags_eq (hs : Sound config h) {tags : TagSpace} (ht : config.tagSpace = .ok tags) :
    h.core.tags = tags := Except.ok.inj (hs.tags.symm.trans ht)

theorem log_tags (hs : Sound config h) :
    (h.retired ++ h.core.buffer.entries).map (·.tag) = h.installed.map (·.tag) := by
  have := congrArg (List.map Prod.fst) hs.log
  rwa [List.map_map, List.map_map] at this

/-- The buffer is the stretch of the installed instructions that have not retired. -/
theorem entries_tags (hs : Sound config h) :
    h.core.buffer.entries.map (·.tag) = (h.installed.map (·.tag)).drop h.retired.length := by
  rw [← hs.log_tags, List.map_append, List.drop_left' (List.length_map _)]

/-- The window covers the buffer. -/
theorem length_le (hs : Sound config h) (valid : config.validate = .ok ()) :
    h.installed.length ≤ h.retired.length + h.core.tags.window := by
  obtain ⟨-, -, -, tags, ht, hle⟩ := Config.validate_eq_ok valid
  have hlen := congrArg List.length hs.log
  have hlt := h.core.buffer.length_entries_lt
  rw [List.length_map, List.length_map, List.length_append] at hlen
  rw [hs.bufferSize] at hlt
  rw [hs.tags_eq ht]
  omega

/-- Equal tags a window apart are never in flight together. -/
theorem distinct (hs : Sound config h) (valid : config.validate = .ok ())
    (hw : Spaced h.core.tags.window (h.installed.map (·.tag))) :
    (h.core.buffer.entries.map (·.tag)).Nodup := by
  rw [hs.entries_tags]
  exact hw.nodup_drop (by simpa using hs.length_le valid)

end Sound

/-! ## What a run keeps while equal tags are a window apart -/

/-- Where each instruction in flight is, and which outcomes stand as committed (module doc). -/
structure Located (config : Config) (h : History) : Prop extends Sound config h where
  distinct : (h.core.buffer.entries.map (·.tag)).Nodup
  waiting : h.core.buffer.waitingTags.Perm
    (h.core.station.live.map (·.tag) ++ h.core.bus.pending.toList.map (·.tag))
  keyed : ∀ s ∈ h.core.station.live, ∃ e ∈ h.core.buffer.entries,
    e.waiting = true ∧ e.key = s.instruction.key
  committed : ∀ t, h.core.committed.lookup t =
    if t ∈ h.core.buffer.entries.map (·.tag) then none else (latest h.retired t).map (·.outcome)

namespace Located

variable {config : Config} {h : History}

theorem start {core : Core} (valid : config.validate = .ok ()) (hf : core.Fresh config) :
    Located config (History.start core) where
  toSound := .start valid hf
  distinct := by simp [History.start, hf.buffer, ReorderBuffer.entries_empty]
  waiting := by
    simp [History.start, hf.buffer, hf.station, hf.bus, ReorderBuffer.waitingTags,
      ReorderBuffer.waiting, ReorderBuffer.entries_empty, ResultBus.idle]
  keyed := by simp [History.start, hf.station]
  committed := by
    simp [History.start, hf.committed, hf.buffer, ReorderBuffer.entries_empty, latest,
      Committed.empty, Committed.lookup]

theorem frame (hl : Located config h) (latch : Option Instruction) (predictor : Counter)
    (stats : Stats) : Located config (h.frame latch predictor stats) :=
  ⟨hl.toSound.frame _ _ _, hl.distinct, hl.waiting, hl.keyed, hl.committed⟩

theorem waiting_nodup (hl : Located config h) :
    (h.core.station.live.map (·.tag) ++ h.core.bus.pending.toList.map (·.tag)).Nodup :=
  hl.waiting.nodup_iff.1 (hl.distinct.sublist h.core.buffer.waitingTags_sublist)

theorem waitingTags_eq_nil (hl : Located config h) (hb : h.core.bus.pending = none) :
    h.core.buffer.waitingTags = [] ↔ h.core.station.live = [] := by
  have hp := hl.waiting
  rw [hb, Option.toList_none, List.map_nil, List.append_nil] at hp
  rw [← List.length_eq_zero_iff, hp.length_eq, List.length_map, List.length_eq_zero_iff]

/-- What is in the station is not on the bus. -/
theorem tag_ne (hl : Located config h) {r : Result} (hb : h.core.bus.pending = some r)
    {s : Station.Entry} (hs : s ∈ h.core.station.live) : s.tag ≠ r.tag := by
  intro ht
  have hn := hl.waiting_nodup
  rw [hb] at hn
  exact List.disjoint_of_nodup_append hn (List.mem_map_of_mem hs) (by simp [ht])

theorem broadcast (hl : Located config h) {r : Result} (hb : h.core.bus.pending = some r) :
    Located config (h.broadcast r) := by
  have hmap := h.core.buffer.map_tag_complete r
  refine ⟨hl.toSound.broadcast r, ?_, ?_, ?_, ?_⟩
  · exact hmap ▸ hl.distinct
  · have hw := (hl.waiting.filter (· ≠ r.tag))
    rw [hb, List.filter_append] at hw
    have hkeep : (h.core.station.live.map (·.tag)).filter (· ≠ r.tag) =
        h.core.station.live.map (·.tag) := by
      refine List.filter_eq_self.2 fun t ht => ?_
      obtain ⟨s, hs, rfl⟩ := List.mem_map.1 ht
      simpa using hl.tag_ne hb hs
    rw [hkeep] at hw
    simpa [History.broadcast, ReorderBuffer.waitingTags_complete hl.distinct, ResultBus.idle,
      Function.comp_def] using hw
  · intro s hs
    obtain ⟨s0, hs0, rfl⟩ := List.mem_map.1 (Station.live_wake _ r ▸ hs)
    obtain ⟨e, he, hw, hk⟩ := hl.keyed s0 hs0
    refine ⟨e, ?_, hw, ?_⟩
    · have ht : e.tag ≠ r.tag := (congrArg Prod.fst hk).trans_ne (hl.tag_ne hb hs0)
      rw [show (h.broadcast r).core.buffer = (h.core.buffer.complete r).1 from rfl,
        ReorderBuffer.entries_complete_of_nodup hl.distinct]
      exact List.mem_map.2 ⟨e, he, if_neg fun hc => ht hc.1⟩
    · rw [hk]
      simp [Instruction.key, Station.Entry.instruction]
  · intro t
    exact hmap ▸ hl.committed t

theorem leave (hl : Located config h) {e : ReorderBuffer.Entry} {buffer : ReorderBuffer}
    (hb : h.core.buffer.retire = some (e, buffer)) : Located config (h.leave e buffer) := by
  obtain ⟨he, hw, -⟩ := ReorderBuffer.retire_eq_some hb
  have hd := hl.distinct
  rw [he, List.map_cons, List.nodup_cons] at hd
  refine ⟨hl.toSound.leave hb, hd.2, ?_, fun s hs => ?_, fun t => ?_⟩
  · exact (ReorderBuffer.waitingTags_retire hb).symm ▸ hl.waiting
  · obtain ⟨x, hx, hxw, hk⟩ := hl.keyed s hs
    rw [he] at hx
    rcases List.mem_cons.1 hx with rfl | hx
    · rw [hw] at hxw
      cases hxw
    · exact ⟨x, hx, hxw, hk⟩
  · have hc := hl.committed t
    rw [he, List.map_cons] at hc
    simp only [History.leave, Committed.lookup_commit, ReorderBuffer.latest_append_singleton]
    by_cases ht : e.tag = t
    · subst ht
      rw [if_pos rfl, if_neg hd.1, if_pos rfl]
      rfl
    · rw [if_neg (Ne.symm ht), if_neg ht, hc]
      simp [List.mem_cons, Ne.symm ht]

theorem send (hl : Located config h) {e : Station.Entry} {station : Station}
    (hb : h.core.bus.pending = none) (hi : h.core.station.issue = some (e.request, station))
    {n : Nat} (ho : h.core.station.oldestReady = some (e, n)) (o : Outcome) :
    Located config (h.send e station o) := by
  have hp := Station.live_issue ho hi
  refine ⟨hl.toSound.send hi o, hl.distinct, hl.waiting.trans ?_, fun s hs => ?_, hl.committed⟩
  · rw [hb]
    have : (h.core.station.live.map (·.tag)).Perm (e.tag :: station.live.map (·.tag)) :=
      hp.map (·.tag)
    simpa [History.send] using this.trans (List.perm_append_singleton _ _).symm
  · exact hl.keyed s (hp.symm.subset (List.mem_cons_of_mem _ hs))

theorem install (hl : Located config h) (valid : config.validate = .ok ()) {i : Instruction}
    (hw : Spaced h.core.tags.window ((h.installed ++ [i]).map (·.tag)))
    (hd : i.opcode.decode.isSome = true) (hf : h.core.station.isFull = false)
    (hb : h.core.buffer.isFull = false) : Located config (h.install i) := by
  have hs := hl.toSound.install hd hf hb
  have htags : (h.install i).core.tags = h.core.tags := Station.tags_push _ _
  have hlive : (h.install i).core.station.live.Perm
      (.ofInstruction (h.core.resolved i) :: h.core.station.live) :=
    Station.live_push hl.counted hf _
  have hentries : (h.install i).core.buffer.entries =
      h.core.buffer.entries ++ [.pending i.opcode i.tag] := ReorderBuffer.entries_push _ _ _ hb
  have hcomm : (h.install i).core.committed = h.core.committed.reclaim i.tag := rfl
  refine ⟨hs, hs.distinct valid (by rwa [htags]), ?_, fun s hm => ?_, fun t => ?_⟩
  · rw [show (h.install i).core.buffer.waitingTags = h.core.buffer.waitingTags ++ [i.tag] from
      ReorderBuffer.waitingTags_push hb _ _]
    refine (List.perm_append_singleton _ _).trans (.trans (.cons _ hl.waiting) ?_)
    exact (hlive.map (·.tag)).symm.append_right _
  · rw [hentries]
    rcases List.mem_cons.1 (hlive.subset hm) with rfl | hm
    · exact ⟨_, List.mem_append_right _ List.mem_cons_self, rfl, rfl⟩
    · obtain ⟨e, he, hk⟩ := hl.keyed s hm
      exact ⟨e, List.mem_append_left _ he, hk⟩
  · rw [hentries, hcomm, Committed.lookup_reclaim, hl.committed t]
    by_cases ht : t = i.tag <;> simp [ht, ReorderBuffer.Entry.pending, History.install]

/-- `Located` is kept by whatever happens in a phase as long as equal tags are a window apart. -/
theorem kept (valid : config.validate = .ok ()) {tags : TagSpace}
    (ht : config.tagSpace = .ok tags) :
    Kept (fun is => Spaced tags.window (is.map (·.tag))) (Located config) where
  closed := fun hc => (List.map_append ▸ hc).of_append
  frame := fun _ _ _ hl => hl.frame _ _ _
  broadcast := fun _ hb hl => hl.broadcast hb
  leave := fun _ hb hl => hl.leave hb
  send := fun _ hb ho hi _ hl => hl.send hb hi ho _
  install := fun hc hd hf hb hl => hl.install valid (hl.tags_eq ht ▸ hc) hd hf hb

/-- A broadcast finds the entry that waits for it. -/
theorem completes (hl : Located config h) {source : List Instruction} {r : Result} {n : Nat}
    {completed : Bool} (hm : .broadcast r n completed ∈ (h.core.step source).events) :
    completed = true := by
  have hm : completed ∈ (h.core.step source).events.filterMap Event.completed? :=
    List.mem_filterMap.2 ⟨_, hm, rfl⟩
  rw [Core.step_completed] at hm
  obtain ⟨r, hr, rfl⟩ := List.mem_map.1 hm
  have ht : r.tag ∈ h.core.buffer.waitingTags :=
    hl.waiting.symm.subset (List.mem_append_right _ (List.mem_map_of_mem hr))
  obtain ⟨e, he, hw, ht⟩ := ReorderBuffer.mem_waitingTags.1 ht
  exact (ReorderBuffer.complete_eq_true_iff hl.distinct r).2 ⟨e, he, ht, hw⟩

theorem not_committed (hl : Located config h) {e : ReorderBuffer.Entry}
    (he : e ∈ h.core.buffer.entries) : h.core.committed.lookup e.tag = none := by
  rw [hl.committed, if_pos (List.mem_map_of_mem he)]

/-- Dispatch finds the outcome of the latest holder of a tag, once that is complete. -/
theorem supply?_eq (hl : Located config h) (t : Tag) :
    (h.core.supply? t).map Supply.outcome =
      (latest (h.retired ++ h.core.buffer.entries) t).bind fun e =>
        if e.waiting then none else some e.outcome := by
  have hc := hl.committed t
  unfold Core.supply?
  by_cases ht : t ∈ h.core.buffer.entries.map (·.tag)
  · rw [if_pos ht] at hc
    obtain ⟨e, he, rfl⟩ := List.mem_map.1 ht
    rw [ReorderBuffer.latest_append_of_mem hl.distinct he,
      ReorderBuffer.lookup_of_mem hl.distinct he, hc, Option.bind_some]
    cases e.waiting <;> rfl
  · rw [if_neg ht] at hc
    rw [ReorderBuffer.latest_append_of_not_mem ht, ReorderBuffer.lookup_of_not_mem ht, hc]
    cases he : latest h.retired t with
    | none => rfl
    | some e =>
      have : e ∈ h.retired := List.mem_reverse.1 (List.mem_of_find?_eq_some he)
      simp [hl.done e this, Supply.outcome]

/-- Where dispatch finds nothing for a tag that was installed, its latest holder still waits. -/
theorem mem_waitingTags (hl : Located config h) {t : Tag} (hs : h.core.supply? t = none)
    (ht : t ∈ h.installed.map (·.tag)) : t ∈ h.core.buffer.waitingTags := by
  have he := hl.supply?_eq t
  rw [hs, Option.map_none] at he
  cases hlt : latest (h.retired ++ h.core.buffer.entries) t with
  | none =>
    rw [← hl.log_tags] at ht
    exact absurd ht (ReorderBuffer.latest_eq_none.1 hlt)
  | some e =>
    have hw : e.waiting = true := by
      by_contra hw
      simp [hlt, hw] at he
    have hm := List.mem_reverse.1 (List.mem_of_find?_eq_some hlt)
    rcases List.mem_append.1 hm with hm | hm
    · rw [hl.done e hm] at hw
      cases hw
    · exact ReorderBuffer.mem_waitingTags.2 ⟨e, hm, hw, ReorderBuffer.tag_of_latest hlt⟩

theorem run {core : Core} (valid : config.validate = .ok ()) (hf : core.Fresh config)
    (calls : List Call) (hw : Spaced core.tags.window
      (((History.start core).run calls).installed.map (·.tag))) :
    Located config ((History.start core).run calls) :=
  (kept valid hf.tags).run calls hw (start valid hf)

end Located

end History

/-! ## The invariant in every reachable state -/

/-- As long as instructions with equal tags are installed at least a window apart, whatever their
operands wait on, an entry of the buffer waits exactly while its instruction is in the station or
its result on the bus, and no tag in flight is that of a committed result. So every broadcast
completes an entry. Programs that are read for the tag space are spaced in this way. -/
theorem in_flight_located {config : Config} (valid : config.validate = .ok ()) :
    ∃ core, Core.ofConfig config = .ok core ∧
      (∀ text program, Program.ofText core.tags text = .ok program →
        Spaced core.tags.window (program.map (·.tag))) ∧
      ∀ calls, let h := (History.start core).run calls
        Spaced core.tags.window (h.installed.map (·.tag)) →
          (h.core.buffer.entries.map (·.tag)).Nodup ∧
          h.core.buffer.waitingTags.Perm
            (h.core.station.live.map (·.tag) ++ h.core.bus.pending.toList.map (·.tag)) ∧
          (∀ s ∈ h.core.station.live, ∃ e ∈ h.core.buffer.entries,
            e.waiting = true ∧ e.tag = s.tag ∧ e.opcode = s.opcode) ∧
          (∀ e ∈ h.core.buffer.entries, h.core.committed.lookup e.tag = none) ∧
          ∀ source r n completed,
            .broadcast r n completed ∈ (h.core.step source).events → completed = true := by
  obtain ⟨core, hc, hf⟩ := Core.ofConfig_fresh valid
  refine ⟨core, hc, fun _ _ => Program.spaced_of_ofText, ?_⟩
  intro calls h hw
  have hl := History.Located.run valid hf calls hw
  refine ⟨hl.distinct, hl.waiting, fun s hs => ?_, fun e he => hl.not_committed he,
    fun _ _ _ _ hm => hl.completes hm⟩
  obtain ⟨e, he, hw, hk⟩ := hl.keyed s hs
  exact ⟨e, he, hw, congrArg Prod.fst hk, congrArg Prod.snd hk⟩

/-- With a window of two, tag 0 comes back while tag 1 is on the bus. The broadcast of tag 1 completes
its entry. -/
theorem in_flight_located_lap :
    ∃ core, Core.ofConfig { bufferEntries := 3, tagBits := 2 } = .ok core ∧
      let i n := Instruction.of (.alu .add) n (.ready 1) (.ready 2) (.ready 0)
      let h := (History.start core).run [.dispatch (i 0), .dispatch (i 1), .step [], .step [i 0]]
      Spaced core.tags.window (h.installed.map (·.tag)) ∧
        h.core.station.live.map (·.tag) = [⟨0⟩] ∧ h.core.bus.pending.map (·.tag) = some ⟨1⟩ ∧
        h.core.buffer.waitingTags.Perm
          (h.core.station.live.map (·.tag) ++ h.core.bus.pending.toList.map (·.tag)) ∧
        (∀ source r n completed,
          .broadcast r n completed ∈ (h.core.step source).events → completed = true) ∧
        .broadcast ⟨⟨1⟩, ⟨3, 0⟩⟩ 0 true ∈ (h.core.step []).events := by
  obtain ⟨core, hc, -, hl⟩ := in_flight_located
    (show Config.validate { bufferEntries := 3, tagBits := 2 } = .ok () by decide)
  obtain rfl := Except.ok.inj (hc.symm.trans rfl)
  refine ⟨_, rfl, ?_⟩
  intro i h
  have hw : Spaced (TagSpace.window ⟨2, by decide, by decide⟩) (h.installed.map (·.tag)) := by
    decide +kernel
  obtain ⟨-, hwaiting, -, -, hcompletes⟩ := hl _ hw
  exact ⟨hw, by decide +kernel, by decide +kernel, hwaiting, hcompletes, by decide +kernel⟩

end OutOfOrder
