import Mathlib
import OutOfOrder.Proofs.Feed
import OutOfOrder.Proofs.Provenance

/-!
# Causes before effects

What is issued was given its values or has them from results of earlier cycles. So an instruction
that waits for a tag that no other one carries is never issued (`Traced.not_sent`), and a simulation
of its program does not end.

Whether such an instruction can retire is another matter, as the buffer knows an entry by its tag
alone: the result of a later instruction that carries the same tag completes the oldest entry under
it. Counting results and complete entries (`Ledger.Paid`) shows that this is the only way.
-/

namespace OutOfOrder

/-! ## Who may retire -/

/-- Changing one place of a list counts for as much as the change of that place. -/
theorem countP_modify_le {α : Type} {p : α → Bool} {f : α → α} {c : Nat} :
    ∀ (l : List α) (i : Nat),
      (∀ x, l[i]? = some x → (if p (f x) then 1 else 0) ≤ (if p x then 1 else 0) + c) →
      (l.modify i f).countP p ≤ l.countP p + c
  | [], i, _ => by rw [List.modify_nil]; exact Nat.le_add_right _ _
  | x :: l, 0, h => by
    have := h x rfl
    rw [List.modify_zero_cons, List.countP_cons, List.countP_cons]
    omega
  | x :: l, i + 1, h => by
    have ih := countP_modify_le l i h
    rw [List.modify_succ_cons, List.countP_cons, List.countP_cons]
    omega

/-- The places below `p` that carry a tag are as many as the first `p` tags that are that tag. -/
theorem countP_range_getElem? (tags : List Tag) (t : Tag) (p : Nat) (hp : p ≤ tags.length) :
    (List.range p).countP (fun q => tags[q]? == some t) = (tags.take p).count t := by
  have hmap : (List.range p).map (fun q => tags[q]?) = (tags.take p).map some := by
    refine List.ext_getElem? fun q => ?_
    rw [List.getElem?_map, List.getElem?_map, List.getElem?_take]
    by_cases hq : q < p
    · simp [hq, List.getElem?_eq_getElem (Nat.lt_of_lt_of_le hq hp)]
    · simp [hq]
  have hcount := congrArg (List.countP (· == some t)) hmap
  rw [List.countP_map, List.countP_map] at hcount
  refine hcount.trans (List.countP_congr fun u _ => ?_)
  simp

/-- Of distinct numbers, those below a bound are among all below it. -/
theorem countP_le_countP_range {p : Nat → Bool} {l : List Nat} {n : Nat} (hl : l.Nodup)
    (h : ∀ q ∈ l, p q = true → q < n) : l.countP p ≤ (List.range n).countP p := by
  rw [List.countP_eq_length_filter, List.countP_eq_length_filter]
  refine (List.Nodup.subperm (hl.filter _) fun q hq => ?_).length_le
  obtain ⟨hm, hp⟩ := List.mem_filter.1 hq
  exact List.mem_filter.2 ⟨List.mem_range.2 (h q hm hp), hp⟩

namespace ReorderBuffer

/-- The entry carries the tag, and its result is there. -/
def Entry.completeUnder (t : Tag) (e : Entry) : Bool := e.tag == t && !e.waiting

/-- A result completes one entry of its tag at most. -/
theorem countP_complete_le (b : ReorderBuffer) (r : Result) (t : Tag) :
    (b.complete r).1.entries.countP (Entry.completeUnder t) ≤
      b.entries.countP (Entry.completeUnder t) + if r.tag == t then 1 else 0 := by
  rw [entries_complete]
  split
  · exact Nat.le_add_right _ _
  · rename_i i hi
    obtain ⟨hlt, htag, -⟩ := List.findIdx?_eq_some_iff_getElem.1 hi
    rw [beq_iff_eq] at htag
    refine countP_modify_le _ _ fun x hx => ?_
    rw [List.getElem?_eq_getElem hlt] at hx
    obtain rfl := Option.some.inj hx
    rw [← htag]
    cases hw : b.entries[i].waiting with
    | false => simp
    | true => simp [hw, Entry.completeUnder, Entry.complete]

end ReorderBuffer

namespace Ledger

/-- Each entry that is complete was paid for by a result under its tag. So what retires has been
issued, or a later instruction that carries its tag, and that came while it was in the buffer. -/
structure Paid (config : Config) (l : Ledger) : Prop extends Traced config l where
  paid : ∀ t, (l.history.retired ++ l.history.core.buffer.entries).countP
        (ReorderBuffer.Entry.completeUnder t) +
      l.history.core.bus.pending.toList.countP (·.tag == t) ≤ l.results.countP (·.tag == t)
  owed : ∀ p i, p < l.history.retired.length → l.history.installed[p]? = some i →
    p ∈ l.sent ∨ ∃ q j, p < q ∧ q + 1 < p + config.bufferEntries ∧
      l.history.installed[q]? = some j ∧ j.tag = i.tag ∧ q ∈ l.sent

namespace Paid

variable {config : Config} {l : Ledger}

theorem start {core : Core} (valid : config.validate = .ok ()) (hf : core.Fresh config) :
    Paid config (Ledger.start core) where
  toTraced := .start valid hf
  paid := by
    simp [Ledger.start, History.start, hf.buffer, hf.bus, ReorderBuffer.entries_empty,
      ResultBus.idle]
  owed := by simp [Ledger.start, History.start]

theorem frame (hp : Paid config l) (latch : Option Instruction) (predictor : Counter)
    (stats : Stats) : Paid config (l.on (l.history.frame latch predictor stats)) :=
  ⟨hp.toTraced.frame _ _ _, hp.paid, hp.owed⟩

theorem broadcast (hp : Paid config l) {r : Result} (hb : l.history.core.bus.pending = some r) :
    Paid config (l.on (l.history.broadcast r)) := by
  refine ⟨hp.toTraced.broadcast hb, fun t => ?_, hp.owed⟩
  have hpaid := hp.paid t
  have hle := l.history.core.buffer.countP_complete_le r t
  rw [hb, Option.toList_some, List.countP_singleton, List.countP_append] at hpaid
  change (l.history.retired ++ (l.history.core.buffer.complete r).1.entries).countP _ +
    List.countP _ [] ≤ _
  rw [List.countP_append, List.countP_nil]
  change _ ≤ l.results.countP _
  omega

/-- What has retired was complete. -/
theorem countP_retired (hp : Paid config l) (t : Tag) :
    l.history.retired.countP (ReorderBuffer.Entry.completeUnder t) =
      (l.history.retired.map (·.tag)).count t := by
  rw [List.count, List.countP_map]
  refine List.countP_congr fun x hx => ?_
  simp [ReorderBuffer.Entry.completeUnder, hp.done x hx]

/-- The results under a tag are those of the instructions that carry it and were issued. -/
theorem countP_results (hp : Paid config l) (t : Tag) :
    l.results.countP (·.tag == t) =
      l.sent.countP fun q => (l.history.installed.map (·.tag))[q]? == some t := by
  have := congrArg (List.countP (· == some t)) hp.latched
  rw [List.countP_map, List.countP_map] at this
  refine Eq.trans (List.countP_congr fun w _ => ?_) this
  simp

/-- If the oldest entry is complete but its instruction was not issued, then a later one with the
same tag was: the results under the tag are more than the earlier instructions that carry it. -/
theorem owed_oldest (hp : Paid config l) {e : ReorderBuffer.Entry} {rest : List ReorderBuffer.Entry}
    (he : l.history.core.buffer.entries = e :: rest) (hw : e.waiting = false)
    (hn : l.history.retired.length ∉ l.sent) :
    ∃ q ∈ l.sent, l.history.retired.length < q ∧
      (l.history.installed.map (·.tag))[q]? = some e.tag := by
  by_contra hno
  have hlog := hp.log_tags
  rw [he] at hlog
  have htake : (l.history.installed.map (·.tag)).take l.history.retired.length =
      l.history.retired.map (·.tag) := by
    rw [← hlog, List.map_append, List.take_left' (List.length_map _)]
  have hlen : l.history.retired.length ≤ (l.history.installed.map (·.tag)).length := by
    rw [← hlog, List.length_map, List.length_append]
    exact Nat.le_add_right _ _
  have hpaid := hp.paid e.tag
  rw [he, List.countP_append, hp.countP_retired, hp.countP_results, List.countP_cons,
    if_pos (by simp [ReorderBuffer.Entry.completeUnder, hw])] at hpaid
  have hle : l.sent.countP (fun q => (l.history.installed.map (·.tag))[q]? == some e.tag) ≤
      (List.range l.history.retired.length).countP
        fun q => (l.history.installed.map (·.tag))[q]? == some e.tag := by
    refine countP_le_countP_range hp.nodup_sent fun q hm ht => ?_
    rw [beq_iff_eq] at ht
    have h1 : q ≠ l.history.retired.length := fun h => hn (h ▸ hm)
    have h2 : ¬ l.history.retired.length < q := fun h => hno ⟨q, hm, h, ht⟩
    omega
  rw [countP_range_getElem? _ _ _ hlen, htake] at hle
  omega

theorem leave (hp : Paid config l) {e : ReorderBuffer.Entry} {buffer : ReorderBuffer}
    (hb : l.history.core.buffer.retire = some (e, buffer)) :
    Paid config (l.on (l.history.leave e buffer)) := by
  obtain ⟨he, hw, -⟩ := ReorderBuffer.retire_eq_some hb
  refine ⟨hp.toTraced.leave hb, fun t => ?_, fun p i hlt hi => ?_⟩
  · have := hp.paid t
    rw [he] at this
    change ((l.history.retired ++ [e]) ++ buffer.entries).countP _ + _ ≤ _
    rwa [List.append_assoc]
  · have hlt : p < (l.history.retired ++ [e]).length := hlt
    rw [List.length_append, List.length_singleton] at hlt
    by_cases hold : p < l.history.retired.length
    · exact hp.owed p i hold hi
    obtain rfl : p = l.history.retired.length := by omega
    by_cases hs : l.history.retired.length ∈ l.sent
    · exact .inl hs
    obtain ⟨q, hq, hpq, htag⟩ := hp.owed_oldest he hw hs
    rw [List.getElem?_map] at htag
    obtain ⟨j, hj, hjt⟩ := Option.map_eq_some_iff.1 htag
    refine .inr ⟨q, j, hpq, ?_, hj, ?_, hq⟩
    · -- it was installed while the entry was in the buffer
      have hlen := congrArg List.length hp.log
      have hcap := l.history.core.buffer.length_entries_lt
      have hlt := (List.getElem?_eq_some_iff.1 hj).1
      rw [List.length_map, List.length_map, List.length_append] at hlen
      rw [hp.bufferSize] at hcap
      omega
    · have := hp.log_tags
      have hi : l.history.installed[l.history.retired.length]? = some i := hi
      have hit := congrArg (·[l.history.retired.length]?) this
      simp [he, hi] at hit
      rw [hjt, hit]

theorem send (hp : Paid config l) {e : Station.Entry} {n : Nat} {station : Station} (o : Outcome)
    (hb : l.history.core.bus.pending = none)
    (ho : l.history.core.station.oldestReady = some (e, n))
    (hi : l.history.core.station.issue = some (e.request, station)) :
    Paid config (l.send e n station o) := by
  refine ⟨hp.toTraced.send o ho hi, fun t => ?_, fun p i hlt hpi => ?_⟩
  · have := hp.paid t
    rw [hb, Option.toList_none, List.countP_nil] at this
    change _ + List.countP _ [Result.mk e.tag o] ≤ (l.results ++ [Result.mk e.tag o]).countP _
    exact (Nat.add_le_add_right this _).trans (List.countP_append ..).symm.le
  · rcases hp.owed p i hlt hpi with hs | ⟨q, j, hpq, hreach, hj, ht, hs⟩
    · exact .inl (List.mem_append_left _ hs)
    · exact .inr ⟨q, j, hpq, hreach, hj, ht, List.mem_append_left _ hs⟩

theorem install (hp : Paid config l) {i : Instruction} (hd : i.opcode.decode.isSome = true)
    (hf : l.history.core.station.isFull = false) (hb : l.history.core.buffer.isFull = false) :
    Paid config (l.install i) := by
  refine ⟨hp.toTraced.install hd hf hb, fun t => ?_, fun p j hlt hj => ?_⟩
  · have := hp.paid t
    change (l.history.retired ++ (l.history.core.buffer.push i.opcode i.tag).1.entries).countP _ +
      _ ≤ _
    rw [ReorderBuffer.entries_push _ _ _ hb, ← List.append_assoc, List.countP_append,
      List.countP_singleton, if_neg (by simp [ReorderBuffer.Entry.completeUnder,
        ReorderBuffer.Entry.pending])]
    exact this
  · have hj : (l.history.installed ++ [i])[p]? = some j := hj
    have hlen := congrArg List.length hp.log
    rw [List.length_map, List.length_map, List.length_append] at hlen
    have hlt : p < l.history.retired.length := hlt
    rw [List.getElem?_append_left (by omega)] at hj
    rcases hp.owed p j hlt hj with hs | ⟨q, x, hpq, hreach, hx, ht, hs⟩
    · exact .inl hs
    · refine .inr ⟨q, x, hpq, hreach, ?_, ht, hs⟩
      exact (List.getElem?_append_left (List.getElem?_eq_some_iff.1 hx).1).trans hx

theorem kept : Kept (Paid config) where
  frame := fun _ _ _ hp => hp.frame _ _ _
  broadcast := fun hb hp => hp.broadcast hb
  leave := fun hb hp => hp.leave hb
  send := fun o hb ho hi hp => hp.send o hb ho hi
  install := fun hd hf hb hp => hp.install hd hf hb

end Paid

end Ledger

/-! ## Waiting for ever -/

/-- Instruction `p` waits for a tag that no other instruction carries. -/
def Orphaned (is : List Instruction) (p : Nat) : Prop :=
  ∃ i k, is[p]? = some i ∧ (i.operands.get k).waiting = true ∧
    (i.operands.get k).tag ∉ (is.eraseIdx p).map (·.tag)

theorem Orphaned.eq_of_tag {is : List Instruction} {p q : Nat} {i j : Instruction} {k : Input}
    (h : (i.operands.get k).tag ∉ (is.eraseIdx p).map (·.tag)) (hj : is[q]? = some j)
    (ht : j.tag = (i.operands.get k).tag) : q = p := by
  by_contra hne
  refine h (List.mem_map.2 ⟨j, ?_, ht⟩)
  exact List.mem_eraseIdx_iff_getElem?.2 ⟨q, hne, hj⟩

namespace Ledger.Traced

variable {config : Config} {l : Ledger}

/-- If whatever carries a tag waits for that same tag, no result ever carries it: the first one
would have to come after another. -/
theorem no_result (ht : Traced config l) {t : Tag}
    (hwait : ∀ i ∈ l.history.installed, i.tag = t →
      ∃ k, (i.operands.get k).waiting = true ∧ (i.operands.get k).tag = t) :
    ∀ w ∈ l.results, w.tag ≠ t := by
  have hat : ∀ (m : Nat) (w : Result), l.results[m]? = some w → w.tag ≠ t := by
    intro m
    induction m using Nat.strong_induction_on with
    | _ m ih =>
      intro w hw hwt
      have hm := congrArg (·[m]?) ht.latched
      simp only [List.getElem?_map, hw, Option.map_some] at hm
      obtain ⟨p, hp, hpt⟩ := Option.map_eq_some_iff.1 hm.symm
      obtain ⟨i, hi, hit⟩ := Option.map_eq_some_iff.1 hpt
      obtain ⟨k, hk, hkt⟩ := hwait i (List.mem_of_getElem? hi) (hit.trans hwt)
      obtain ⟨w', hw', ht'⟩ := ht.causal m p i k hp hi hk
      obtain ⟨m', hm', he⟩ := List.mem_take_iff_getElem.1 hw'
      have hlt : m' < m := by omega
      exact ih m' hlt w' (List.getElem?_eq_some_iff.2 ⟨by omega, he⟩) (ht'.trans hkt)
  intro w hw
  obtain ⟨m, hm⟩ := List.mem_iff_getElem?.1 hw
  exact hat m w hm

/-- An instruction that waits for a tag that no other carries is never issued. -/
theorem not_sent (ht : Traced config l) {p : Nat} (ho : Orphaned l.history.installed p) :
    p ∉ l.sent := by
  obtain ⟨i, k, hi, hk, hother⟩ := ho
  intro hp
  obtain ⟨m, hm⟩ := List.mem_iff_getElem?.1 hp
  obtain ⟨w, hw, hwt⟩ := ht.causal m p i k hm hi hk
  refine ht.no_result (t := (i.operands.get k).tag) (fun j hj hjt => ?_) w (List.mem_of_mem_take hw)
    hwt
  obtain ⟨q, hq⟩ := List.mem_iff_getElem?.1 hj
  obtain rfl := Orphaned.eq_of_tag hother hq hjt
  obtain rfl := Option.some.inj (hi.symm.trans hq)
  exact ⟨k, hk, rfl⟩

/-- What a cycle issues is an instruction that was installed, with its own values and those of
results of earlier cycles. -/
theorem step_issued (ht : Traced config (l.on l.history.settle)) {source : List Instruction}
    {r : Request} (hr : r ∈ (l.history.core.step source).issued) :
    ∃ p i, (l.call (.step source)).sent = l.sent ++ [p] ∧ l.history.installed[p]? = some i ∧
      i.key = r.key ∧
      ∀ k, if (i.operands.get k).waiting then
          ∃ w ∈ l.results, w.tag = (i.operands.get k).tag ∧
            r.operands.get k = if k = .f then w.outcome.flags else w.outcome.value
        else r.operands.get k = (i.operands.get k).value := by
  have hsent : (l.call (.step source)).sent = l.sent ++
      (l.history.core.settled.issue.events.filterMap Event.request?).map fun _ =>
        l.origin l.history.core.settled.station.readySlot := rfl
  rw [Core.step_issued] at hr
  obtain ⟨-, stats, he, -⟩ | ⟨e, -, -, he⟩ | ⟨e, n, station, op, predictor, stats, ho, -, -, -, -,
    -, hreq⟩ := l.history.core.settled.issue_cases
  · rw [he] at hr
    cases hr
  · rw [he] at hr
    cases hr
  · rw [hreq] at hr hsent
    obtain rfl := List.mem_singleton.1 hr
    rw [List.map_singleton, Station.readySlot_eq ho] at hsent
    obtain ⟨hready, hn, hne⟩ := Station.oldestReady_mem ho
    have hocc := Station.Entry.occupied_of_ready hready
    obtain ⟨i, hi, hk, hops⟩ := ht.given n e (List.getElem?_eq_some_iff.2 ⟨hn, hne⟩) hocc
    refine ⟨_, i, hsent, hi, hk, fun k => ?_⟩
    have hvalue : e.request.operands.get k = (e.operands.get k).value := Operands.get_map _ _ k
    rw [hvalue]
    split
    · rename_i hw
      obtain ⟨w, hm, ht, hv⟩ := (hops k).taken hw ((Station.Entry.ready_iff hocc).1 hready k)
      exact ⟨w, hm, ht, hv.trans (w.outcome.read_eq k)⟩
    · rename_i hw
      rw [(hops k).ready (by simpa using hw)]

end Ledger.Traced

/-! ## A simulation that never ends -/

namespace Simulator

/-- A run goes on to the limit if no cycle fails or comes to an end. -/
theorem runFor_endless {I : Simulator → Prop}
    (hstep : ∀ {s}, I s → s.isFinished = false ∧ (∃ report, s.tick.outcome = .ok report) ∧
      I s.tick.simulator) (budget : Nat) {s : Simulator} (h : I s) (reports : Array CycleReport)
    (events : Array Event) :
    (s.runFor budget reports events).outcome = .error (.cycleLimit (s.cycles + budget)) := by
  induction budget generalizing s reports events with
  | zero =>
    unfold runFor
    rw [(hstep h).1]
    rfl
  | succ budget ih =>
    obtain ⟨hf, ⟨report, ho⟩, hI⟩ := hstep h
    unfold runFor
    rw [hf]
    simp only [Bool.false_eq_true, if_false, ho]
    rw [ih hI]
    have hcycles : s.tick.simulator.cycles = s.cycles + 1 := Core.cycles_step _ _
    rw [hcycles, Nat.add_right_comm, Nat.add_assoc]

/-- The program is fed to a core that waits for ever. -/
theorem not_finished {config : Config} {program : Program} {p : Nat} {s : Simulator} {l : Ledger}
    (ht : l.Traced config) (hf : Fed config program s l.history) (ho : Orphaned program p)
    (hd : ∀ i ∈ program, i.opcode.decode.isSome = true) : s.isFinished = false := by
  by_contra hfin
  rw [Bool.not_eq_false] at hfin
  simp only [isFinished, Core.isDrained, Bool.and_eq_true, List.isEmpty_iff,
    Option.isNone_iff_eq_none] at hfin
  obtain ⟨hsource, ⟨⟨hlatch, hstation⟩, -⟩, -⟩ := hfin
  rw [hf.core] at hlatch hstation
  obtain ⟨taken, hp, htaken⟩ := hf.taken
  have hinst : l.history.installed = program := by
    rw [hsource, List.append_nil] at hp
    rw [hlatch, Option.toList_none, List.append_nil, ← hp] at htaken
    rw [htaken, List.filter_eq_self]
    exact hd
  obtain ⟨i, k, hi, -⟩ := id ho
  have hlt : p < l.history.installed.length := by
    rw [hinst]
    exact (List.getElem?_eq_some_iff.1 hi).1
  rcases ht.sent_or_held hlt with hs | hs
  · exact ht.not_sent (hinst ▸ ho) hs
  · exact hs ((Station.isEmpty_iff ht.counted).1 hstation)

/-- A simulation of such a program runs into its limit. -/
theorem run_endless {config : Config} {program : Program} {p : Nat} {core : Core}
    (valid : config.validate = .ok ()) (hf : core.Fresh config) (ho : Orphaned program p)
    (hd : ∀ i ∈ program, i.opcode.decode.isSome = true) :
    (Simulator.mk core program #[] config.maxCycles).run.outcome =
      .error (.cycleLimit config.maxCycles) := by
  let I := fun s : Simulator => ∃ l, Ledger.Paid config l ∧ Fed config program s l.history
  have hstart : I ⟨core, program, #[], config.maxCycles⟩ :=
    ⟨_, .start valid hf, .start valid hf⟩
  have hrun := runFor_endless (I := I) (fun {s} hs => ?_) config.maxCycles hstart #[] #[]
  · have hcycles : core.stats.cycles = 0 := by rw [hf.stats]
    rw [Simulator.cycles, hcycles, Nat.zero_add] at hrun
    rw [run, Simulator.cycles, hcycles, Nat.sub_zero]
    exact hrun
  · obtain ⟨l, hp, hs⟩ := hs
    refine ⟨not_finished hp.toTraced hs ho hd, hs.tick_ok hd, l.call (.step s.source), ?_, ?_⟩
    · exact Ledger.Paid.kept.call _ hp
    · rw [Ledger.history_call]
      exact hs.tick

end Simulator

/-- In every run, whatever is issued is an instruction that was installed, and each operand is the
one that was given with it, or, if that was waiting for a tag, the part of a result under that tag
that an earlier cycle has latched.

So an instruction that waits for a tag that no other carries is never issued. It retires, and with
it any later instruction, only if a later instruction that carries its own tag was issued, and was
installed while it was in the buffer. A simulation of a program with such an instruction always
runs into its limit. -/
theorem issue_causal {config : Config} (valid : config.validate = .ok ()) :
    ∃ core, Core.ofConfig config = .ok core ∧
      (∀ calls, let l := (Ledger.start core).run calls
        let h := l.history
        h = (History.start core).run calls ∧
          (∀ source, ∀ r ∈ (h.core.step source).issued, ∃ p i,
            (l.call (.step source)).sent = l.sent ++ [p] ∧ h.installed[p]? = some i ∧
              i.key = r.key ∧
              ∀ k, if (i.operands.get k).waiting then
                  ∃ w ∈ l.results, w.tag = (i.operands.get k).tag ∧
                    r.operands.get k = if k = .f then w.outcome.flags else w.outcome.value
                else r.operands.get k = (i.operands.get k).value) ∧
          ∀ p, Orphaned h.installed p →
            p ∉ l.sent ∧ (p < h.retired.length →
              ∃ i q j, p < q ∧ q + 1 < p + config.bufferEntries ∧ h.installed[p]? = some i ∧
                h.installed[q]? = some j ∧ j.tag = i.tag ∧ q ∈ l.sent)) ∧
      ∀ program p, Orphaned program p → (∀ i ∈ program, i.opcode.decode.isSome = true) →
        ∃ s, Simulator.ofConfig config program = .ok s ∧
          s.run.outcome = .error (.cycleLimit config.maxCycles) := by
  obtain ⟨core, hcore, hf⟩ := Core.ofConfig_fresh valid
  refine ⟨core, hcore, ?_, ?_⟩
  · intro calls l h
    have hp : Ledger.Paid config l := Ledger.Paid.kept.run calls (.start valid hf)
    refine ⟨Ledger.history_run _ calls, fun source r hr => ?_, fun p ho => ?_⟩
    · exact (Ledger.Paid.kept.settle hp).toTraced.step_issued hr
    · have hn := hp.not_sent ho
      refine ⟨hn, fun hlt => ?_⟩
      obtain ⟨i, -, hi, -⟩ := ho
      obtain ⟨q, j, hpq, hreach, hj, ht, hs⟩ := (hp.owed p i hlt hi).resolve_left hn
      exact ⟨i, q, j, hpq, hreach, hi, hj, ht, hs⟩
  · intro program p ho hd
    refine ⟨⟨core, program, #[], config.maxCycles⟩, ?_, Simulator.run_endless valid hf ho hd⟩
    rw [Simulator.ofConfig, hcore]
    rfl

/-- The first instruction waits for ever. The second carries its tag, and the third waits for that
tag twice and has its sum and its carry. By then the first one has retired. -/
theorem issue_causal_orphan :
    let i op n a f := Instruction.of (.alu op) n a (.ready 4) f
    let program := [i .sub 5 (.waitingOn ⟨9⟩) (.ready 0), i .add 5 (.ready (-1)) (.ready 0),
      i .add 6 (.waitingOn ⟨5⟩) (.waitingOn ⟨5⟩)]
    ∃ core, Core.ofConfig {} = .ok core ∧
      let calls := [.step program, .step (program.drop 1), .step (program.drop 2), .step []]
      let l := (Ledger.start core).run calls
      let before := (Ledger.start core).run (calls.take 3)
      before.results = [⟨⟨5⟩, ⟨3, 1⟩⟩] ∧
        (∃ r ∈ (before.history.core.step []).issued, r.operands = ⟨3, 4, 1⟩) ∧
        0 ∉ l.sent ∧ l.history.retired.map (·.opcode) = [Opcode.encode (.alu .sub)] ∧
        (∃ q, 0 < q ∧ q ∈ l.sent) ∧
        ∃ s, Simulator.ofConfig {} program = .ok s ∧
          s.run.outcome = .error (.cycleLimit (Config.maxCycles {})) := by
  intro i program
  obtain ⟨core, hc, hcore, hrun⟩ := issue_causal (show Config.validate {} = .ok () by decide)
  obtain rfl := Except.ok.inj (hc.symm.trans rfl)
  refine ⟨_, hc, ?_⟩
  intro calls l before
  have hinst : l.history.installed = program := by decide +kernel
  have ho : Orphaned program 0 := ⟨_, .a, rfl, rfl, by decide +kernel⟩
  obtain ⟨-, hissued, -⟩ := hcore (calls.take 3)
  obtain ⟨-, -, hretired⟩ := hcore calls
  obtain ⟨hn, howed⟩ := hretired 0 (hinst ▸ ho)
  obtain ⟨-, q, -, hq, -, -, -, -, hs⟩ := howed (by decide +kernel)
  have hone : (before.history.core.step []).issued.length = 1 := by decide +kernel
  obtain ⟨r, hr⟩ := List.length_eq_one_iff.1 hone
  obtain ⟨p, j, hp, hj, -, hops⟩ := hissued [] r (hr ▸ List.mem_cons_self)
  obtain rfl : 2 = p := by
    have : (before.call (.step [])).sent = before.sent ++ [2] := by decide +kernel
    exact List.singleton_inj.1 (List.append_cancel_left (this.symm.trans hp))
  obtain rfl : i .add 6 (.waitingOn ⟨5⟩) (.waitingOn ⟨5⟩) = j := by
    have : before.history.installed[2]? =
      some (i .add 6 (.waitingOn ⟨5⟩) (.waitingOn ⟨5⟩)) := by decide +kernel
    exact Option.some.inj (this.symm.trans hj)
  have hresults : before.results = [⟨⟨5⟩, ⟨3, 1⟩⟩] := by decide +kernel
  have hsum : ∀ w ∈ before.results, w = ⟨⟨5⟩, ⟨3, 1⟩⟩ := by simp [hresults]
  have hoperands : r.operands = ⟨3, 4, 1⟩ := by
    obtain ⟨w, hw, -, ha⟩ := hops .a
    obtain ⟨x, hx, -, hf⟩ := hops .f
    rw [hsum w hw] at ha
    rw [hsum x hx] at hf
    exact Operands.ext fun k => match k with | .a => ha | .b => hops .b | .f => hf
  exact ⟨hresults, ⟨r, hr ▸ List.mem_cons_self, hoperands⟩, hn, by decide +kernel, ⟨q, hq, hs⟩,
    hrun program 0 ho (by decide)⟩

/-- An instruction that waits for ever can retire nevertheless: where the next one carries its tag
too, the result of that one completes the older entry, which retires with it. -/
theorem retired_unissued :
    let i op a := Instruction.of (.alu op) 5 a (.ready 2) (.ready 0)
    let program := [i .sub (.waitingOn ⟨9⟩), i .add (.ready 1)]
    ∃ core, Core.ofConfig {} = .ok core ∧
      let l := (Ledger.start core).run
        [.step program, .step (program.drop 1), .step [], .step []]
      l.history.installed = program ∧ Orphaned l.history.installed 0 ∧ 0 ∉ l.sent ∧
        l.history.retired = [⟨false, Opcode.encode (.alu .sub), ⟨5⟩, ⟨3, 0⟩⟩] := by
  intro i program
  refine ⟨_, rfl, ?_⟩
  intro l
  have hinst : l.history.installed = program := by decide +kernel
  refine ⟨hinst, ?_, by decide +kernel, by decide +kernel⟩
  rw [hinst]
  exact ⟨_, .a, rfl, rfl, by decide +kernel⟩

end OutOfOrder
