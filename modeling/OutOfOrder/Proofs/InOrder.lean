import Mathlib
import OutOfOrder.Proofs.Progress

/-!
# Execution in order

`inOrder is` evaluates instructions one after the other: a waiting operand reads the value, or the
flags, that the latest earlier holder of its tag computed. What a core retires is a prefix of that,
whichever of the four ways an operand takes to its consumer: it may be there from the start, be
found among the committed results or in the buffer at dispatch, or be taken from the bus later.

The invariant (`Evaluated`) says of each thing that holds a value that it is the one of `inOrder`:
the retired entries, the complete entries of the buffer, the result on the bus, and every entry of
the station with what is still missing filled in.
-/

namespace OutOfOrder

open ReorderBuffer (latest)

/-! ## One instruction after the other -/

def Opcode.outcome (o : Opcode) (x : Operands Int32) : Outcome :=
  match o.decode with
  | some op => op.outcome x
  | none => ⟨0, 0⟩

/-- What an operand stands for once `done` is done: a slot that waits takes the value of the latest
holder of the tag, and the third one its flags. -/
def Operand.read (slot : Operand) (done : List ReorderBuffer.Entry) (k : Input) : Int32 :=
  if slot.waiting then
    match latest done slot.tag with
    | some e => if k = .f then e.outcome.flags else e.outcome.value
    | none => slot.value
  else slot.value

theorem Operand.read_of_latest {slot : Operand} {done : List ReorderBuffer.Entry}
    {e : ReorderBuffer.Entry} (hw : slot.waiting = true) (hl : latest done slot.tag = some e)
    (k : Input) : slot.read done k = e.outcome.read k := by
  rw [read, if_pos hw, hl, Outcome.read_eq]

theorem Operand.read_of_ready {slot : Operand} (hw : slot.waiting = false)
    (done : List ReorderBuffer.Entry) (k : Input) : slot.read done k = slot.value := by
  rw [read, if_neg (by simp [hw])]

/-- What is done later under another tag is not read. -/
theorem Operand.read_append_singleton {slot : Operand} {done : List ReorderBuffer.Entry}
    {e : ReorderBuffer.Entry} (h : slot.waiting = true → e.tag ≠ slot.tag) (k : Input) :
    slot.read (done ++ [e]) k = slot.read done k := by
  unfold read
  split
  · rename_i hw
    rw [ReorderBuffer.latest_append_singleton, if_neg (h hw)]
  · rfl

/-- The entry that an instruction becomes once `done` is done. -/
def Instruction.evaluate (i : Instruction) (done : List ReorderBuffer.Entry) :
    ReorderBuffer.Entry where
  waiting := false
  opcode := i.opcode
  tag := i.tag
  outcome := i.opcode.outcome (i.operands.map fun k slot => slot.read done k)

/-- The entries that instructions become when each is evaluated after those before it. -/
def inOrder (is : List Instruction) : List ReorderBuffer.Entry :=
  is.foldl (fun done i => done ++ [i.evaluate done]) []

theorem inOrder_append_singleton (is : List Instruction) (i : Instruction) :
    inOrder (is ++ [i]) = inOrder is ++ [i.evaluate (inOrder is)] := by
  rw [inOrder, List.foldl_append]
  rfl

theorem inOrder_append (is more : List Instruction) : inOrder is <+: inOrder (is ++ more) := by
  induction more using List.reverseRecOn with
  | nil => rw [List.append_nil]
  | append_singleton more i ih =>
    rw [← List.append_assoc, inOrder_append_singleton]
    exact ih.trans (List.prefix_append ..)

theorem key_inOrder (is : List Instruction) : (inOrder is).map (·.key) = is.map (·.key) := by
  induction is using List.reverseRecOn with
  | nil => rfl
  | append_singleton is i ih =>
    rw [inOrder_append_singleton, List.map_append, ih, List.map_append]
    rfl

theorem waiting_inOrder (is : List Instruction) : ∀ e ∈ inOrder is, e.waiting = false := by
  induction is using List.reverseRecOn with
  | nil => exact nofun
  | append_singleton is i ih =>
    intro e he
    rw [inOrder_append_singleton] at he
    rcases List.mem_append.1 he with he | he
    · exact ih e he
    · rw [List.mem_singleton.1 he]
      rfl

/-- An instruction is evaluated alike where its operands read alike. -/
theorem Instruction.evaluate_congr {i j : Instruction} {done more : List ReorderBuffer.Entry}
    (hk : i.key = j.key)
    (h : ∀ k, (i.operands.get k).read done k = (j.operands.get k).read more k) :
    i.evaluate done = j.evaluate more := by
  have hops : (i.operands.map fun k slot => slot.read done k) =
      j.operands.map fun k slot => slot.read more k := Operands.ext fun k => by simpa using h k
  obtain ⟨ht, ho⟩ := Prod.mk.inj hk
  simp only [evaluate, hops, ht, ho]

/-- Taking a result from the bus changes nothing, if it is the one that would be read. -/
theorem Station.Entry.evaluate_wake {s : Station.Entry} (h : s.occupied = true) {r : Result}
    {done : List ReorderBuffer.Entry} {e : ReorderBuffer.Entry} (hl : latest done r.tag = some e)
    (ho : e.outcome = r.outcome) :
    (s.wake r).1.instruction.evaluate done = s.instruction.evaluate done := by
  refine Instruction.evaluate_congr (by simp [Instruction.key, instruction]) fun k => ?_
  change ((s.wake r).1.operands.get k).read done k = (s.operands.get k).read done k
  rw [get_wake h]
  obtain ⟨hw, ht, hr⟩ | ⟨-, hr⟩ := (s.operands.get k).resolve_cases r.tag (r.outcome.read k)
  · rw [hr, Operand.read_of_latest hw (ht ▸ hl), ho]
    rfl
  · rw [hr]

/-- A ready entry is evaluated with its own values. -/
theorem Station.Entry.evaluate_of_ready {s : Station.Entry} (h : s.ready = true)
    {op : Operation} (hd : s.opcode.decode = some op) (done : List ReorderBuffer.Entry) :
    (s.instruction.evaluate done).outcome = op.outcome s.operands.values := by
  have hready := (ready_iff (occupied_of_ready h)).1 h
  have hops : (s.operands.map fun k slot => slot.read done k) = s.operands.values :=
    Operands.ext fun k => by simp [Operands.values, Operand.read_of_ready (hready k)]
  simp [Instruction.evaluate, instruction, hops, Opcode.outcome, hd]

theorem ReorderBuffer.Entry.complete_eq {x e : ReorderBuffer.Entry} (hk : x.key = e.key)
    (hw : x.waiting = false) : e.complete x.outcome = x := by
  obtain ⟨w, o, t, y⟩ := x
  obtain ⟨rfl, rfl⟩ := Prod.mk.inj hk
  simp only [complete, ← hw]

/-! ## Every value is the one in order -/

namespace History

/-- Whatever holds a value holds the one that `inOrder` has for it (module doc). -/
structure Evaluated (config : Config) (h : History) : Prop extends Ordered config h where
  retired : h.retired <+: inOrder h.installed
  complete : ∀ e ∈ h.core.buffer.entries, e.waiting = false →
    latest (inOrder h.installed) e.tag = some e
  station : ∀ s ∈ h.core.station.live,
    latest (inOrder h.installed) s.tag = some (s.instruction.evaluate (inOrder h.installed))
  bus : ∀ r, h.core.bus.pending = some r →
    ∃ e, latest (inOrder h.installed) r.tag = some e ∧ e.outcome = r.outcome

namespace Evaluated

variable {config : Config} {h : History}

theorem start {core : Core} (valid : config.validate = .ok ()) (hf : core.Fresh config) :
    Evaluated config (History.start core) where
  toOrdered := .start valid hf
  retired := List.nil_prefix
  complete := by simp [History.start, hf.buffer, ReorderBuffer.entries_empty]
  station := by simp [History.start, hf.station]
  bus := by simp [History.start, hf.bus, ResultBus.idle]

theorem frame (he : Evaluated config h) (latch : Option Instruction) (predictor : Counter)
    (stats : Stats) : Evaluated config (h.frame latch predictor stats) :=
  ⟨he.toOrdered.frame _ _ _, he.retired, he.complete, he.station, he.bus⟩

/-- What is still in the buffer is, in order, what comes after the retired entries. -/
theorem ahead (he : Evaluated config h) : ∃ ahead, inOrder h.installed = h.retired ++ ahead ∧
    ahead.map (·.key) = h.core.buffer.entries.map (·.key) ∧
    ahead.map (·.tag) = h.core.buffer.entries.map (·.tag) := by
  obtain ⟨ahead, ha⟩ := he.retired
  have hkey : ahead.map (·.key) = h.core.buffer.entries.map (·.key) := by
    have := key_inOrder h.installed
    rw [← he.log, ← ha, List.map_append, List.map_append] at this
    exact List.append_cancel_left this
  exact ⟨ahead, ha.symm, hkey, ReorderBuffer.map_tag_of_map_key hkey⟩

/-- An entry of the buffer is in order the latest holder of its tag. -/
theorem latest_eq (he : Evaluated config h) {e : ReorderBuffer.Entry}
    (hm : e ∈ h.core.buffer.entries) :
    ∃ x, latest (inOrder h.installed) e.tag = some x ∧ x.key = e.key ∧ x.waiting = false := by
  obtain ⟨ahead, ha, hk, ht⟩ := he.ahead
  have hd : (ahead.map (·.tag)).Nodup := ht ▸ he.distinct
  have hmk : e.key ∈ ahead.map (·.key) := hk ▸ List.mem_map_of_mem hm
  obtain ⟨x, hx, hxk⟩ := List.mem_map.1 hmk
  have hxt : x.tag = e.tag := congrArg Prod.fst hxk
  refine ⟨x, ?_, hxk, waiting_inOrder h.installed x (ha ▸ List.mem_append_right _ hx)⟩
  rw [ha, ← hxt, ReorderBuffer.latest_append_of_mem hd hx]

/-- What dispatch finds for a tag is, in order, the outcome of its latest holder. -/
theorem supply?_eq_some (he : Evaluated config h) {t : Tag} {s : Supply}
    (hs : h.core.supply? t = some s) :
    ∃ e, latest (inOrder h.installed) t = some e ∧ e.outcome = s.outcome := by
  have hl := he.supply?_eq t
  rw [hs, Option.map_some] at hl
  obtain ⟨e, hle, hw⟩ := Option.bind_eq_some_iff.1 hl.symm
  have hwait : e.waiting = false := by
    by_contra hc
    simp [hc] at hw
  rw [hwait] at hw
  refine ⟨e, ?_, Option.some.inj hw⟩
  by_cases ht : t ∈ h.core.buffer.entries.map (·.tag)
  · obtain ⟨x, hx, rfl⟩ := List.mem_map.1 ht
    rw [ReorderBuffer.latest_append_of_mem he.distinct hx] at hle
    obtain rfl := Option.some.inj hle
    exact he.complete x hx hwait
  · obtain ⟨ahead, ha, -, hta⟩ := he.ahead
    rw [ReorderBuffer.latest_append_of_not_mem ht] at hle
    rw [ha, ReorderBuffer.latest_append_of_not_mem (hta ▸ ht), hle]

theorem broadcast (he : Evaluated config h) {r : Result} (hb : h.core.bus.pending = some r) :
    Evaluated config (h.broadcast r) := by
  obtain ⟨x, hx, ho⟩ := he.bus r hb
  refine ⟨he.toOrdered.broadcast hb, he.retired, fun e hm hw => ?_, fun s hs => ?_, nofun⟩
  · have hm : e ∈ (h.core.buffer.complete r).1.entries := hm
    rw [ReorderBuffer.entries_complete_of_nodup he.distinct] at hm
    obtain ⟨e0, hm0, rfl⟩ := List.mem_map.1 hm
    split at hw
    · rename_i hc
      -- the entry that the result completes is the one that the result was computed for
      obtain ⟨y, hy, hk, hyw⟩ := he.latest_eq hm0
      rw [← hc.1, hy] at hx
      obtain rfl := Option.some.inj hx
      rw [if_pos hc, ReorderBuffer.Entry.tag_complete, ← ho, ReorderBuffer.Entry.complete_eq hk hyw]
      exact hy
    · rename_i hc
      rw [if_neg hc]
      exact he.complete e0 hm0 hw
  · obtain ⟨s0, hs0, rfl⟩ := List.mem_map.1 (Station.live_wake _ r ▸ hs)
    have hev := Station.Entry.evaluate_wake (Station.occupied_of_mem_live hs0) hx ho
    rw [Station.Entry.tag_wake]
    exact (he.station s0 hs0).trans (congrArg some hev.symm)

theorem leave (he : Evaluated config h) {e : ReorderBuffer.Entry} {buffer : ReorderBuffer}
    (hb : h.core.buffer.retire = some (e, buffer)) : Evaluated config (h.leave e buffer) := by
  obtain ⟨hentries, hw, -⟩ := ReorderBuffer.retire_eq_some hb
  refine ⟨he.toOrdered.leave hb, ?_, fun x hx => ?_, he.station, he.bus⟩
  · obtain ⟨ahead, ha, hk, ht⟩ := he.ahead
    have hd : (ahead.map (·.tag)).Nodup := ht ▸ he.distinct
    rw [hentries, List.map_cons] at hk
    obtain ⟨x, rest, rfl, hxk, -⟩ := List.map_eq_cons_iff.1 hk
    have hc := he.complete e (hentries ▸ List.mem_cons_self) hw
    rw [← show x.tag = e.tag from congrArg Prod.fst hxk, ha,
      ReorderBuffer.latest_append_of_mem hd List.mem_cons_self] at hc
    obtain rfl := Option.some.inj hc
    exact ⟨rest, (List.append_assoc ..).trans ha.symm⟩
  · exact he.complete x (hentries ▸ List.mem_cons_of_mem _ hx)

theorem send (he : Evaluated config h) {e : Station.Entry} {station : Station} {op : Operation}
    (hb : h.core.bus.pending = none) (hi : h.core.station.issue = some (e.request, station))
    {n : Nat} (hr : h.core.station.oldestReady = some (e, n)) (hd : e.opcode.decode = some op) :
    Evaluated config (h.send e station (op.outcome e.operands.values)) := by
  refine ⟨he.toOrdered.send hb hi hr _, he.retired, he.complete, fun s hs => ?_, fun r hp => ?_⟩
  · have hp := Station.live_issue hr hi
    exact he.station s (hp.symm.subset (List.mem_cons_of_mem _ hs))
  · cases hp
    refine ⟨_, he.station e (Station.mem_live_of_oldestReady hr), ?_⟩
    exact Station.Entry.evaluate_of_ready (Station.oldestReady_mem hr).1 hd _

/-- What dispatch finds for the operands of an instruction is what is read in order. -/
theorem evaluate_resolved (he : Evaluated config h) {i : Instruction}
    (hi : Supplied (h.installed ++ [i])) (hnew : ∀ t ∈ h.core.buffer.waitingTags, i.tag ≠ t)
    {e : ReorderBuffer.Entry} (het : e.tag = i.tag) :
    (h.core.resolved i).evaluate (inOrder h.installed ++ [e]) =
      i.evaluate (inOrder h.installed) := by
  refine Instruction.evaluate_congr rfl fun k => ?_
  rw [Core.get_resolved]
  obtain ⟨hn, hr⟩ | ⟨hn, hs, hr⟩ | ⟨s, hn, hs, hr⟩ := h.core.resolve_cases k (i.operands.get k)
  · rw [hr, Operand.read_of_ready hn, Operand.read_of_ready hn]
  · -- its producer is in flight, so the new holder of a tag is not taken for it
    obtain ⟨j, hj, ht⟩ := hi.last hn
    have hm := he.mem_waitingTags hs (ht ▸ List.mem_map_of_mem hj)
    rw [hr, Operand.read_append_singleton fun _ => het ▸ hnew _ hm]
  · obtain ⟨x, hl, ho⟩ := he.supply?_eq_some hs
    rw [hr, Operand.read_of_latest hn hl, Operand.read_of_ready rfl, ho]

theorem install (he : Evaluated config h) (valid : config.validate = .ok ()) {i : Instruction}
    (hw : Spaced h.core.tags.window ((h.installed ++ [i]).map (·.tag)))
    (hi : Supplied (h.installed ++ [i])) (hd : i.opcode.decode.isSome = true)
    (hf : h.core.station.isFull = false) (hb : h.core.buffer.isFull = false) :
    Evaluated config (h.install i) := by
  have ho := he.toOrdered.install valid hw hi hd hf hb
  have hentries : (h.install i).core.buffer.entries =
      h.core.buffer.entries ++ [.pending i.opcode i.tag] := ReorderBuffer.entries_push _ _ _ hb
  have hlive : (h.install i).core.station.live.Perm
      (.ofInstruction (h.core.resolved i) :: h.core.station.live) :=
    Station.live_push he.counted hf _
  have hin : inOrder (h.install i).installed =
      inOrder h.installed ++ [i.evaluate (inOrder h.installed)] := inOrder_append_singleton _ _
  -- the new tag is none of those in flight, so it hides none of their holders
  have hnew : ∀ t ∈ h.core.buffer.entries.map (·.tag), i.tag ≠ t := by
    intro t ht hit
    have hn := ho.distinct
    rw [hentries, List.map_append] at hn
    exact List.disjoint_of_nodup_append hn ht (by simp [ReorderBuffer.Entry.pending, hit])
  have hwait : ∀ t ∈ h.core.buffer.waitingTags, i.tag ≠ t := fun t ht =>
    hnew t (h.core.buffer.waitingTags_sublist.subset ht)
  have hlatest : ∀ t, i.tag ≠ t →
      latest (inOrder (h.install i).installed) t = latest (inOrder h.installed) t := by
    intro t ht
    rw [hin, ReorderBuffer.latest_append_singleton]
    exact if_neg ht
  refine ⟨ho, he.retired.trans (inOrder_append ..), fun e hm hew => ?_, fun s hs => ?_,
    fun r hr => ?_⟩
  · rw [hentries] at hm
    rcases List.mem_append.1 hm with hm | hm
    · rw [hlatest _ (hnew _ (List.mem_map_of_mem hm))]
      exact he.complete e hm hew
    · rw [List.mem_singleton.1 hm] at hew
      cases hew
  · rcases List.mem_cons.1 (hlive.subset hs) with rfl | hs
    · have hev := he.evaluate_resolved hi hwait (e := i.evaluate (inOrder h.installed)) rfl
      rw [hin, ReorderBuffer.latest_append_singleton]
      exact (if_pos rfl).trans (congrArg some hev.symm)
    · have hm : s.tag ∈ h.core.buffer.waitingTags :=
        he.waiting.symm.subset (List.mem_append_left _ (List.mem_map_of_mem hs))
      rw [hlatest _ (hwait _ hm)]
      refine (he.station s hs).trans (congrArg some (Instruction.evaluate_congr rfl fun k => ?_))
      rw [hin]
      exact (Operand.read_append_singleton (fun hk =>
        hwait _ ((he.ordered s hs k hk).subset List.mem_cons_self)) k).symm
  · have hr : h.core.bus.pending = some r := hr
    have hm : r.tag ∈ h.core.buffer.waitingTags :=
      he.waiting.symm.subset (List.mem_append_right _ (by simp [hr]))
    rw [hlatest _ (hwait _ hm)]
    exact he.bus r hr

/-- `Evaluated` is kept by whatever happens in a phase as long as equal tags are a window apart and
waiting operands name earlier instructions. -/
theorem kept (valid : config.validate = .ok ()) {tags : TagSpace}
    (ht : config.tagSpace = .ok tags) :
    Kept (fun is => Spaced tags.window (is.map (·.tag)) ∧ Supplied is) (Evaluated config) where
  closed := (Ordered.kept valid ht).closed
  frame := fun _ _ _ he => he.frame _ _ _
  broadcast := fun _ hb he => he.broadcast hb
  leave := fun _ hb he => he.leave hb
  send := fun _ hb hr hi hd he => he.send hb hi hr hd
  install := fun hc hd hf hb he => he.install valid (he.tags_eq ht ▸ hc.1) hc.2 hd hf hb

end Evaluated

end History

/-! ## What retires -/

/-- As long as equal tags are a window apart and waiting operands name earlier instructions, what
has retired at any point of a run is a prefix of what the installed instructions compute one after
the other. -/
theorem retired_in_order {config : Config} (valid : config.validate = .ok ()) :
    ∃ core, Core.ofConfig config = .ok core ∧
      ∀ calls, let installed := ((History.start core).run calls).installed
        Spaced core.tags.window (installed.map (·.tag)) → Supplied installed →
          ∀ before, before <+: calls →
            ((History.start core).run before).retired <+: inOrder installed := by
  obtain ⟨core, hcore, hf⟩ := Core.ofConfig_fresh valid
  refine ⟨core, hcore, ?_⟩
  rintro calls installed hw hi before ⟨after, rfl⟩
  have k := History.Evaluated.kept valid hf.tags
  obtain ⟨more, hm⟩ : ((History.start core).run before).installed <+: installed := by
    simp only [installed, History.run_append]
    exact History.installed_prefix_run ..
  rw [← hm] at hw hi ⊢
  have he := k.run before (k.closed ⟨hw, hi⟩) (.start valid hf)
  exact he.retired.trans (inOrder_append ..)

/-- A sum, a difference that borrows, and a branch on the borrow under the tag of the sum: three
ways of being fed, and the values that they have in order. -/
theorem retired_in_order_branch :
    ∃ core, Core.ofConfig { stationEntries := 2, bufferEntries := 3, tagBits := 2 } = .ok core ∧
      let calls : List Call :=
        [.dispatch (.of (.alu .add) 0 (.ready 1) (.ready 2) (.ready 0)),
          .step [.of (.alu .sub) 1 (.waitingOn ⟨0⟩) (.ready 5) (.ready 0)],
          .step [.of (.branch ⟨borrowFlag, false⟩) 0 (.ready 0) (.ready 0) (.waitingOn ⟨1⟩)],
          .step [], .step []]
      let h := (History.start core).run calls
      h.retired <+: inOrder h.installed ∧
        h.retired.map (·.outcome) = [⟨3, 0⟩, ⟨-2, borrowFlag⟩, ⟨1, 0⟩] := by
  obtain ⟨core, hc, h⟩ := retired_in_order
    (show Config.validate { stationEntries := 2, bufferEntries := 3, tagBits := 2 } = .ok () by
      decide)
  obtain rfl := Except.ok.inj (hc.symm.trans rfl)
  refine ⟨_, rfl, ?_⟩
  intro calls h'
  exact ⟨h calls (by decide +kernel) (by decide +kernel) calls List.prefix_rfl, by decide +kernel⟩

end OutOfOrder
