import Mathlib
import OutOfOrder.Proofs.InFlight

/-!
# Which instruction is which

Tags do not tell instructions apart where two of one tag are in flight, and equal instructions may
be installed twice. What an entry of the station stands for is known by its slot: it is what was
last put there. A `Ledger` is a history that notes for each slot the place of that instruction in
the order of installation, so that of each request it can be said which instruction was issued
(`sent`). It also keeps what was latched on the bus (`results`), one result for each request.

As for histories, what is kept by whatever happens in a phase is kept by every run (`Kept.run`).
-/

namespace OutOfOrder

/-! ## Slots by number -/

namespace Station

/-- The slot that the next instruction goes to. -/
def freeSlot (s : Station) : Nat := (s.slots.findIdx? (!·.occupied)).getD 0

/-- The slot of the oldest ready entry. -/
def readySlot (s : Station) : Nat := (s.oldestReady.map (·.2)).getD 0

/-- The numbers of the occupied slots. -/
def holding (s : Station) : List Nat :=
  (List.range s.slots.length).filter fun n => s.slots[n]?.any (·.occupied)

theorem mem_holding {s : Station} {n : Nat} :
    n ∈ s.holding ↔ ∃ e, s.slots[n]? = some e ∧ e.occupied = true := by
  rw [holding, List.mem_filter, List.mem_range]
  constructor
  · rintro ⟨hn, ho⟩
    rw [List.getElem?_eq_getElem hn] at ho
    exact ⟨_, List.getElem?_eq_getElem hn, ho⟩
  · rintro ⟨e, he, ho⟩
    exact ⟨(List.getElem?_eq_some_iff.1 he).1, by rw [he]; exact ho⟩

theorem nodup_holding (s : Station) : s.holding.Nodup := List.nodup_range.filter _

theorem mem_live_of_getElem? {s : Station} {n : Nat} {e : Entry} (h : s.slots[n]? = some e)
    (ho : e.occupied = true) : e ∈ s.live := mem_live.2 ⟨List.mem_of_getElem? h, ho⟩

theorem holding_eq_nil {s : Station} : s.holding = [] ↔ s.live = [] := by
  constructor
  · intro h
    refine List.eq_nil_iff_forall_not_mem.2 fun e he => ?_
    obtain ⟨n, hn⟩ := List.mem_iff_getElem?.1 (mem_live.1 he).1
    have hm := mem_holding.2 ⟨e, hn, (mem_live.1 he).2⟩
    rw [h] at hm
    cases hm
  · intro h
    refine List.eq_nil_iff_forall_not_mem.2 fun n hn => ?_
    obtain ⟨e, he, ho⟩ := mem_holding.1 hn
    have hm := mem_live_of_getElem? he ho
    rw [h] at hm
    cases hm

theorem holding_wake (s : Station) (r : Result) : (s.wake r).1.holding = s.holding := by
  unfold holding
  rw [slots_wake, List.length_map]
  refine List.filter_congr fun n _ => ?_
  rw [List.getElem?_map]
  cases s.slots[n]? <;> simp

section
variable {s : Station} (hc : s.Counted) (hf : s.isFull = false) (i : Instruction)
include hc hf

theorem slots_push : ∃ hn : s.freeSlot < s.slots.length, s.slots[s.freeSlot].occupied = false ∧
    (s.push i).1.slots = s.slots.set s.freeSlot (.ofInstruction i) := by
  obtain ⟨n, hn, hfree, -⟩ := push_eq hc hf i
  cases hm : s.slots.findIdx? (!·.occupied) with
  | none =>
    have := List.findIdx?_eq_none_iff.1 hm _ (List.getElem_mem hn)
    rw [hfree] at this
    cases this
  | some m =>
    obtain ⟨hlt, hfree, -⟩ := List.findIdx?_eq_some_iff_getElem.1 hm
    simp only [freeSlot, push, hm, Option.getD_some]
    exact ⟨hlt, by simpa using hfree, trivial⟩

theorem holding_push :
    s.freeSlot ∉ s.holding ∧ (s.push i).1.holding.Perm (s.freeSlot :: s.holding) := by
  obtain ⟨hn, hfree, hs⟩ := slots_push hc hf i
  have hnot : s.freeSlot ∉ s.holding := by
    rw [mem_holding]
    rintro ⟨e, he, ho⟩
    rw [List.getElem?_eq_getElem hn] at he
    obtain rfl := Option.some.inj he
    rw [hfree] at ho
    cases ho
  refine ⟨hnot, (List.perm_ext_iff_of_nodup (nodup_holding _)
    (List.nodup_cons.2 ⟨hnot, nodup_holding s⟩)).2 fun n => ?_⟩
  rw [List.mem_cons, mem_holding, mem_holding, hs]
  by_cases hm : n = s.freeSlot
  · subst hm
    simp [List.getElem?_set_self hn, Entry.ofInstruction]
  · simp [List.getElem?_set_ne (Ne.symm hm), hm]

end

section
variable {s s' : Station} {e : Entry} {n : Nat} (ho : s.oldestReady = some (e, n))
include ho

theorem readySlot_eq : s.readySlot = n := by rw [readySlot, ho]; rfl

theorem slots_issue {r : Request} (hi : s.issue = some (r, s')) :
    s'.slots = s.slots.set n { e with occupied := false } := by
  rw [issue, ho] at hi
  obtain ⟨-, rfl⟩ := Prod.mk.inj (Option.some.inj hi)
  rfl

theorem holding_issue {r : Request} (hi : s.issue = some (r, s')) :
    s.holding.Perm (n :: s'.holding) := by
  obtain ⟨hr, hn, he⟩ := oldestReady_mem ho
  have hfree : n ∉ s'.holding := by
    rw [mem_holding, slots_issue ho hi, List.getElem?_set_self hn]
    rintro ⟨x, hx, hx'⟩
    obtain rfl := Option.some.inj hx
    cases hx'
  refine (List.perm_ext_iff_of_nodup (nodup_holding _)
    (List.nodup_cons.2 ⟨hfree, nodup_holding s'⟩)).2 fun m => ?_
  rw [List.mem_cons, mem_holding, mem_holding, slots_issue ho hi]
  by_cases hm : m = n
  · subst hm
    simp [List.getElem?_eq_getElem hn, he, Entry.occupied_of_ready hr]
  · simp [List.getElem?_set_ne (Ne.symm hm), hm]

end

end Station

/-! ## Ledgers -/

/-- A history with a record of which instruction is which: instructions are known by their places in
the order of installation. -/
structure Ledger where
  history : History
  /-- The place of the instruction that was last put into a slot. -/
  origin : Nat → Nat
  /-- The places of the instructions that were issued. -/
  sent : List Nat
  /-- What issuing them has latched on the bus. -/
  results : List Result

namespace Ledger

def start (core : Core) : Ledger := ⟨.start core, fun _ => 0, [], []⟩

/-- Notes that the next instruction goes into the free slot. -/
def fill (l : Ledger) : Nat → Nat :=
  Function.update l.origin l.history.core.station.freeSlot l.history.installed.length

/-- The issue phase, and what is noted of it: where the request came from, and its result. -/
def issue (l : Ledger) : Ledger where
  history := l.history.issue
  origin := l.origin
  sent := l.sent ++ (l.history.core.issue.events.filterMap Event.request?).map fun _ =>
    l.origin l.history.core.station.readySlot
  results := l.results ++ l.history.issue.core.bus.pending.toList

def call (l : Ledger) : Call → Ledger
  | .dispatch i =>
    { l with
      history := l.history.call (.dispatch i)
      origin := if (l.history.core.dispatch i).installs then l.fill else l.origin }
  | .step source =>
    let issued := { l with history := l.history.settle }.issue
    { issued with
      history := l.history.call (.step source)
      origin := if (l.history.core.step source).installs then issued.fill else issued.origin }

def run (l : Ledger) (calls : List Call) : Ledger := calls.foldl call l

theorem history_call (l : Ledger) (c : Call) : (l.call c).history = l.history.call c := by
  cases c <;> rfl

theorem history_run (l : Ledger) (calls : List Call) :
    (l.run calls).history = l.history.run calls := by
  induction calls generalizing l with
  | nil => rfl
  | cons c calls ih =>
    rw [run, List.foldl_cons, ← run, ih, history_call]
    rfl

/-! ## What can happen in a phase -/

/-- The history goes on, and nothing is noted. -/
def on (l : Ledger) (h : History) : Ledger := { l with history := h }

def send (l : Ledger) (e : Station.Entry) (n : Nat) (station : Station) (o : Outcome) : Ledger where
  history := l.history.send e station o
  origin := l.origin
  sent := l.sent ++ [l.origin n]
  results := l.results ++ [⟨e.tag, o⟩]

def install (l : Ledger) (i : Instruction) : Ledger :=
  { l with history := l.history.install i, origin := l.fill }

theorem issue_cases (l : Ledger) (hb : l.history.core.bus.pending = none) :
    ((l.history.core.station.issue = none ∨
          ∃ e ∈ l.history.core.station.live, e.opcode.decode = none) ∧
        ∃ stats, l.issue = l.on
          (l.history.frame l.history.core.latch l.history.core.predictor stats)) ∨
      ∃ e n station op predictor stats, l.history.core.station.oldestReady = some (e, n) ∧
        l.history.core.station.issue = some (e.request, station) ∧ e.opcode.decode = some op ∧
        l.issue = (l.send e n station (op.outcome e.operands.values)).on
          ((l.history.send e station (op.outcome e.operands.values)).frame l.history.core.latch
            predictor stats) := by
  have hissued : l.history.issue.issued =
      l.history.issued ++ l.history.core.issue.events.filterMap Event.request? := rfl
  obtain ⟨hn, stats, hi⟩ | ⟨e, n, station, op, predictor, stats, ho, hst, hd, hi⟩ :=
    l.history.issue_cases hb
  · refine .inl ⟨hn, stats, ?_⟩
    rw [hi] at hissued
    rw [issue, hi, List.self_eq_append_right.1 hissued]
    simp [on, History.frame, hb]
  · refine .inr ⟨e, n, station, op, predictor, stats, ho, hst, hd, ?_⟩
    rw [hi] at hissued
    rw [issue, hi, ← List.append_cancel_left hissued, Station.readySlot_eq ho]
    rfl

theorem call_dispatch_cases (l : Ledger) (i : Instruction) :
    (∃ stats, l.call (.dispatch i) =
        l.on (l.history.frame l.history.core.latch l.history.core.predictor stats)) ∨
      (i.opcode.decode.isSome = true ∧ l.history.core.station.isFull = false ∧
        l.history.core.buffer.isFull = false ∧ l.call (.dispatch i) = l.install i) := by
  obtain ⟨-, he⟩ | ⟨stall, stats, he, -⟩ | ⟨hd, hs, hb, he⟩ := l.history.core.dispatch_cases i
  · exact .inl ⟨l.history.core.stats, by
      simp [call, History.call, he, Core.After.installs, History.frame, on]⟩
  · exact .inl ⟨stats, by simp [call, History.call, he, Core.After.installs, History.frame, on]⟩
  · exact .inr ⟨hd, hs, hb, by
      simp [call, History.call, he, Core.After.installs, History.install, install]⟩

/-- The phases of a cycle before dispatch. -/
def early (l : Ledger) : Ledger := (l.on l.history.settle).issue

/-- A cycle ends after these phases, or with the installation of an instruction. -/
theorem call_step_cases (l : Ledger) (source : List Instruction) :
    (∃ latch stats, l.call (.step source) =
        l.early.on (l.early.history.frame latch l.early.history.core.predictor stats)) ∨
      ∃ i latch, i.opcode.decode.isSome = true ∧ l.early.history.core.station.isFull = false ∧
        l.early.history.core.buffer.isFull = false ∧
        l.call (.step source) =
          (l.early.on (l.early.history.frame latch l.early.history.core.predictor
            l.early.history.core.stats)).install i := by
  have hcall : l.call (.step source) =
      { l.early with
        history := l.history.call (.step source)
        origin := if (l.history.core.step source).installs then l.early.fill else l.origin } := rfl
  have hinst : (l.history.call (.step source)).installed = l.history.installed ++
      if (l.history.core.step source).installs then (l.history.core.offered source).toList
      else [] := rfl
  rw [hcall]
  obtain ⟨hi, -⟩ | ⟨j, hj, -, -, -, hi, -⟩ := l.history.core.step_end source
  · rw [hi, if_neg Bool.false_ne_true, List.append_nil] at hinst
    obtain ⟨latch, stats, he⟩ | ⟨i, latch, -, -, -, he⟩ := l.history.call_step_cases source
    · exact .inl ⟨latch, stats, by rw [hi, he]; rfl⟩
    · rw [he] at hinst
      exact absurd (List.append_right_eq_self.1 hinst) (List.cons_ne_nil _ _)
  · rw [hi, hj, if_pos rfl] at hinst
    obtain ⟨latch, stats, he⟩ | ⟨i, latch, hd, hs, hb, he⟩ := l.history.call_step_cases source
    · rw [he] at hinst
      exact absurd (List.self_eq_append_right.1 hinst) (List.cons_ne_nil _ _)
    · exact .inr ⟨i, latch, hd, hs, hb, by rw [hi, he]; rfl⟩

/-! ## What every run keeps -/

/-- `P` is kept by whatever happens in a phase. -/
structure Kept (P : Ledger → Prop) : Prop where
  frame : ∀ {l} latch predictor stats, P l → P (l.on (l.history.frame latch predictor stats))
  broadcast : ∀ {l r}, l.history.core.bus.pending = some r → P l → P (l.on (l.history.broadcast r))
  leave : ∀ {l e buffer}, l.history.core.buffer.retire = some (e, buffer) → P l →
    P (l.on (l.history.leave e buffer))
  send : ∀ {l e n station} o, l.history.core.bus.pending = none →
    l.history.core.station.oldestReady = some (e, n) →
    l.history.core.station.issue = some (e.request, station) → P l → P (l.send e n station o)
  install : ∀ {l i}, i.opcode.decode.isSome = true → l.history.core.station.isFull = false →
    l.history.core.buffer.isFull = false → P l → P (l.install i)

namespace Kept

variable {P : Ledger → Prop} (k : Kept P) {l : Ledger}
include k

theorem deliver (hP : P l) : P (l.on l.history.begun.deliver) := by
  have hbegun : P (l.on l.history.begun) := k.frame _ _ _ hP
  obtain ⟨-, he⟩ | ⟨r, stats, hb, he⟩ := l.history.begun.deliver_cases
  · rwa [he]
  · rw [he]
    exact k.frame _ _ _ (k.broadcast (l := l.on l.history.begun) hb hbegun)

theorem settle (hP : P l) : P (l.on l.history.settle) := by
  have hdelivered := k.deliver hP
  unfold History.settle
  obtain ⟨-, stats, he⟩ | ⟨e, buffer, stats, hb, he⟩ := l.history.begun.deliver.retire_cases
  · rw [he]
    exact k.frame _ _ _ hdelivered
  · rw [he]
    exact k.frame _ _ _ (k.leave (l := l.on l.history.begun.deliver) hb hdelivered)

theorem early (hP : P l) : P l.early := by
  have hb := l.history.pending_settle
  unfold Ledger.early
  obtain ⟨-, stats, he⟩ | ⟨e, n, station, op, predictor, stats, ho, hi, -, he⟩ :=
    (l.on l.history.settle).issue_cases hb
  · rw [he]
    exact k.frame _ _ _ (k.settle hP)
  · rw [he]
    exact k.frame _ _ _ (k.send _ hb ho hi (k.settle hP))

theorem call (c : Call) (hP : P l) : P (l.call c) := by
  cases c with
  | dispatch i =>
    obtain ⟨stats, he⟩ | ⟨hd, hs, hb, he⟩ := l.call_dispatch_cases i
    · rw [he]
      exact k.frame _ _ _ hP
    · rw [he]
      exact k.install hd hs hb hP
  | step source =>
    obtain ⟨latch, stats, he⟩ | ⟨i, latch, hd, hs, hb, he⟩ := l.call_step_cases source
    · rw [he]
      exact k.frame _ _ _ (k.early hP)
    · rw [he]
      exact k.install hd hs hb (k.frame _ _ _ (k.early hP))

theorem run (calls : List Call) (hP : P l) : P (l.run calls) := by
  induction calls generalizing l with
  | nil => exact hP
  | cons c calls ih => exact ih (k.call c hP)

end Kept

end Ledger

end OutOfOrder
