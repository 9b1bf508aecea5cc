import Mathlib
import OutOfOrder.Proofs.Phases

/-!
# Histories

A core is driven by calls: an instruction is dispatched directly, or a cycle is run with a source
that offers instructions. A `History` is a core with what the calls so far have installed, issued
and retired, each in order.

A call is made of phases (`call_dispatch_cases`, `call_step_cases`), and in a phase at most one
thing happens to the instructions in flight: a result is broadcast, an entry leaves the buffer, an
entry of the station is sent to execution, or an instruction is installed. The rest is `frame`: the
latch, the predictor and the statistics. So what these four keep, every run keeps (`Kept.run`), and
no invariant has to look into a whole cycle.
-/

namespace OutOfOrder

/-- What can be asked of a core. Every cycle may come with another source. -/
inductive Call
  | dispatch (i : Instruction)
  | step (source : List Instruction)

structure History where
  core : Core
  installed : List Instruction
  issued : List Request
  retired : List ReorderBuffer.Entry

namespace History

def start (core : Core) : History := ⟨core, [], [], []⟩

def call (h : History) : Call → History
  | .dispatch i =>
    let d := h.core.dispatch i
    { h with
      core := d.core
      installed := h.installed ++ if d.installs then [i] else [] }
  | .step source =>
    let c := h.core.step source
    { core := c.core
      installed := h.installed ++ if c.installs then (h.core.offered source).toList else []
      issued := h.issued ++ c.issued
      retired := h.retired ++ c.retired.toList }

def run (h : History) (calls : List Call) : History := calls.foldl call h

theorem run_append (h : History) (before after : List Call) :
    h.run (before ++ after) = (h.run before).run after := List.foldl_append

/-! ## Phases -/

def deliver (h : History) : History := { h with core := h.core.deliver.core }

def retire (h : History) : History :=
  { h with core := h.core.retire.core, retired := h.retired ++ h.core.retire.answer.toList }

def issue (h : History) : History :=
  { h with
    core := h.core.issue.core
    issued := h.issued ++ h.core.issue.events.filterMap Event.request? }

/-- The parts of a core that no instruction in flight depends on are set anew. -/
def frame (h : History) (latch : Option Instruction) (predictor : Counter) (stats : Stats) :
    History :=
  { h with core := { h.core with latch, predictor, stats } }

def begun (h : History) : History :=
  h.frame h.core.latch h.core.predictor { h.core.stats with cycles := h.core.stats.cycles + 1 }

/-- The phases of a cycle before issue. -/
def settle (h : History) : History := h.begun.deliver.retire

/-! ## What can happen in a phase -/

/-- A result is broadcast. -/
def broadcast (h : History) (r : Result) : History :=
  { h with
    core := { h.core with
      station := (h.core.station.wake r).1
      buffer := (h.core.buffer.complete r).1
      bus := .idle } }

/-- An entry retires and leaves the rest of the buffer. -/
def leave (h : History) (e : ReorderBuffer.Entry) (buffer : ReorderBuffer) : History :=
  { h with
    core := { h.core with buffer, committed := h.core.committed.commit e.tag e.outcome }
    retired := h.retired ++ [e] }

/-- An entry of the station is issued and leaves the rest of the station. -/
def send (h : History) (e : Station.Entry) (station : Station) (o : Outcome) : History :=
  { h with
    core := { h.core with station, bus := ⟨some ⟨e.tag, o⟩⟩ }
    issued := h.issued ++ [e.request] }

def install (h : History) (i : Instruction) : History :=
  { h with core := h.core.install i, installed := h.installed ++ [i] }

theorem deliver_cases (h : History) :
    (h.core.bus.pending = none ∧ h.deliver = h) ∨
      ∃ r stats, h.core.bus.pending = some r ∧
        h.deliver = (h.broadcast r).frame h.core.latch h.core.predictor stats := by
  cases hb : h.core.bus.pending with
  | none => exact .inl ⟨rfl, by rw [deliver, Core.deliver_idle hb]⟩
  | some r => exact .inr ⟨r, _, rfl, by rw [deliver, Core.deliver_busy hb]; rfl⟩

theorem retire_cases (h : History) :
    (h.core.buffer.retire = none ∧
        ∃ stats, h.retire = h.frame h.core.latch h.core.predictor stats) ∨
      ∃ e buffer stats, h.core.buffer.retire = some (e, buffer) ∧
        h.retire = (h.leave e buffer).frame h.core.latch h.core.predictor stats := by
  cases hb : h.core.buffer.retire with
  | none =>
    obtain ⟨ha, stats, he, -⟩ := Core.retire_none hb
    exact .inl ⟨rfl, stats, by rw [retire, ha, he]; simp [frame]⟩
  | some p =>
    obtain ⟨e, buffer⟩ := p
    exact .inr ⟨e, buffer, _, rfl, by rw [retire, Core.retire_some hb]; rfl⟩

theorem issue_cases (h : History) (hb : h.core.bus.pending = none) :
    ((h.core.station.issue = none ∨ ∃ e ∈ h.core.station.live, e.opcode.decode = none) ∧
        ∃ stats, h.issue = h.frame h.core.latch h.core.predictor stats) ∨
      ∃ e n station op predictor stats, h.core.station.oldestReady = some (e, n) ∧
        h.core.station.issue = some (e.request, station) ∧ e.opcode.decode = some op ∧
        h.issue = (h.send e station (op.outcome e.operands.values)).frame h.core.latch predictor
          stats := by
  obtain ⟨hn, stats, he, -⟩ | ⟨e, hm, hd, he⟩ | ⟨e, n, station, op, predictor, stats, ho, hi, hd, -,
    he, -, hr⟩ := h.core.issue_cases
  · exact .inl ⟨.inl hn, stats, by rw [issue, he]; simp [frame]⟩
  · exact .inl ⟨.inr ⟨e, hm, hd⟩, h.core.stats, by rw [issue, he]; simp [frame]⟩
  · refine .inr ⟨e, n, station, op, predictor, stats, ho, hi, hd, ?_⟩
    rw [issue, he, hr, ResultBus.latch, if_pos (by rw [ResultBus.isFree, hb]; rfl)]
    rfl

/-! ## A call is made of phases -/

theorem call_dispatch_cases (h : History) (i : Instruction) :
    (∃ stats, h.call (.dispatch i) = h.frame h.core.latch h.core.predictor stats) ∨
      (i.opcode.decode.isSome = true ∧ h.core.station.isFull = false ∧
        h.core.buffer.isFull = false ∧ h.call (.dispatch i) = h.install i) := by
  obtain ⟨-, he⟩ | ⟨stall, stats, he, -⟩ | ⟨hd, hs, hb, he⟩ := h.core.dispatch_cases i
  · exact .inl ⟨h.core.stats, by simp [call, he, Core.After.installs, frame]⟩
  · exact .inl ⟨stats, by simp [call, he, Core.After.installs, frame]⟩
  · exact .inr ⟨hd, hs, hb, by simp [call, he, Core.After.installs, install]⟩

/-- A cycle is its first three phases, and then the installation of what it was offered or
nothing more. -/
theorem call_step_cases (h : History) (source : List Instruction) :
    (∃ latch stats, h.call (.step source) =
        h.settle.issue.frame latch h.settle.issue.core.predictor stats) ∨
      ∃ i latch, i.opcode.decode.isSome = true ∧
        h.settle.issue.core.station.isFull = false ∧ h.settle.issue.core.buffer.isFull = false ∧
        h.call (.step source) =
          (h.settle.issue.frame latch h.settle.issue.core.predictor
            h.settle.issue.core.stats).install i := by
  have hcall : h.call (.step source) =
      { h.settle.issue with
        core := (h.core.step source).core
        installed := h.installed ++
          if (h.core.step source).installs then (h.core.offered source).toList else [] } := by
    rw [call, h.core.step_issued source, h.core.step_retired source]
    rfl
  obtain ⟨hi, latch, stats, he⟩ | ⟨i, ho, hd, hs, hb, hi, he⟩ := h.core.step_end source
  · refine .inl ⟨latch, stats, ?_⟩
    rw [hcall, hi, he, if_neg Bool.false_ne_true, List.append_nil]
    rfl
  · refine .inr ⟨i, none, hd, hs, hb, ?_⟩
    rw [hcall, hi, he, ho, if_pos rfl]
    rfl

/-- With nothing latched and nothing to fetch, a cycle is its first three phases. -/
theorem call_idle {h : History} (hl : h.core.latch = none) :
    h.call (.step []) = h.settle.issue := by
  obtain ⟨hc, hi⟩ := Core.step_idle hl
  rw [call, hc, hi, h.core.step_issued, h.core.step_retired, if_neg Bool.false_ne_true,
    List.append_nil]
  rfl

/-! ## Invariants -/

theorem pending_deliver (h : History) : h.deliver.core.bus.pending = none := by
  obtain ⟨hb, he⟩ | ⟨r, stats, -, he⟩ := h.deliver_cases
  · rw [he, hb]
  · rw [he]; rfl

/-- The bus is free when the issue phase begins. -/
theorem pending_settle (h : History) : h.settle.core.bus.pending = none := by
  obtain ⟨-, stats, he⟩ | ⟨e, buffer, stats, -, he⟩ := h.begun.deliver.retire_cases
  · rw [settle, he]; exact h.begun.pending_deliver
  · rw [settle, he]; exact h.begun.pending_deliver

/-- `P` is kept by whatever happens in a phase, as long as the instructions installed keep to
`C`. -/
structure Kept (C : List Instruction → Prop) (P : History → Prop) : Prop where
  closed : ∀ {is more}, C (is ++ more) → C is
  frame : ∀ {h} latch predictor stats, P h → P (h.frame latch predictor stats)
  broadcast : ∀ {h r}, C h.installed → h.core.bus.pending = some r → P h → P (h.broadcast r)
  leave : ∀ {h e buffer}, C h.installed → h.core.buffer.retire = some (e, buffer) → P h →
    P (h.leave e buffer)
  send : ∀ {h e n station op}, C h.installed → h.core.bus.pending = none →
    h.core.station.oldestReady = some (e, n) → h.core.station.issue = some (e.request, station) →
    e.opcode.decode = some op → P h → P (h.send e station (op.outcome e.operands.values))
  install : ∀ {h i}, C (h.installed ++ [i]) → i.opcode.decode.isSome = true →
    h.core.station.isFull = false → h.core.buffer.isFull = false → P h → P (h.install i)

namespace Kept

variable {C : List Instruction → Prop} {P : History → Prop} (k : Kept C P) {h : History}
include k

theorem deliver (hC : C h.installed) (hP : P h) : P h.deliver := by
  obtain ⟨-, he⟩ | ⟨r, stats, hb, he⟩ := h.deliver_cases
  · rwa [he]
  · rw [he]
    exact k.frame _ _ _ (k.broadcast hC hb hP)

theorem retire (hC : C h.installed) (hP : P h) : P h.retire := by
  obtain ⟨-, stats, he⟩ | ⟨e, buffer, stats, hb, he⟩ := h.retire_cases
  · rw [he]
    exact k.frame _ _ _ hP
  · rw [he]
    exact k.frame _ _ _ (k.leave hC hb hP)

theorem issue (hC : C h.installed) (hb : h.core.bus.pending = none) (hP : P h) : P h.issue := by
  obtain ⟨-, stats, he⟩ | ⟨e, n, station, op, predictor, stats, ho, hi, hd, he⟩ := h.issue_cases hb
  · rw [he]
    exact k.frame _ _ _ hP
  · rw [he]
    exact k.frame _ _ _ (k.send hC hb ho hi hd hP)

theorem settle (hC : C h.installed) (hP : P h) : P h.settle :=
  k.retire hC (k.deliver hC (k.frame _ _ _ hP))

theorem call (c : Call) (hC : C (h.call c).installed) (hP : P h) : P (h.call c) := by
  cases c with
  | dispatch i =>
    obtain ⟨stats, he⟩ | ⟨hd, hs, hb, he⟩ := h.call_dispatch_cases i
    · rw [he]
      exact k.frame _ _ _ hP
    · rw [he] at hC ⊢
      exact k.install hC hd hs hb hP
  | step source =>
    obtain ⟨latch, stats, he⟩ | ⟨i, latch, hd, hs, hb, he⟩ := h.call_step_cases source
    · rw [he] at hC ⊢
      exact k.frame _ _ _ (k.issue hC h.pending_settle (k.settle hC hP))
    · rw [he] at hC ⊢
      have hC' : C h.installed := k.closed hC
      exact k.install hC hd hs hb
        (k.frame _ _ _ (k.issue hC' h.pending_settle (k.settle hC' hP)))

end Kept

/-- What a call installs comes after what was installed before. -/
theorem installed_prefix_call (h : History) (c : Call) : h.installed <+: (h.call c).installed := by
  cases c <;> exact List.prefix_append ..

theorem installed_prefix_run (h : History) (calls : List Call) :
    h.installed <+: (h.run calls).installed := by
  induction calls generalizing h with
  | nil => exact List.prefix_rfl
  | cons c calls ih => exact (h.installed_prefix_call c).trans (ih (h.call c))

/-- What is kept by whatever happens in a phase is kept by every run. -/
theorem Kept.run {C : List Instruction → Prop} {P : History → Prop} (k : Kept C P) {h : History}
    (calls : List Call) (hC : C (h.run calls).installed) (hP : P h) : P (h.run calls) := by
  induction calls generalizing h with
  | nil => exact hP
  | cons c calls ih =>
    obtain ⟨more, hm⟩ := (h.call c).installed_prefix_run calls
    exact ih hC (k.call c (k.closed (hm ▸ hC)) hP)

/-- A call that installs an instruction has come to a state in which there is room for it, through
phases that keep what is kept, and ends with the installation. -/
theorem call_eq_install {h : History} {c : Call} {i : Instruction}
    (hi : (h.call c).installed = h.installed ++ [i]) :
    ∃ g : History, h.call c = g.install i ∧ g.installed = h.installed ∧
      g.core.station.isFull = false ∧ g.core.buffer.isFull = false ∧
      ∀ {C P}, Kept C P → C h.installed → P h → P g := by
  cases c with
  | dispatch j =>
    obtain ⟨stats, he⟩ | ⟨-, hs, hb, he⟩ := h.call_dispatch_cases j
    · rw [he] at hi
      exact absurd (List.self_eq_append_right.1 hi) (List.cons_ne_nil _ _)
    · rw [he] at hi
      obtain rfl := List.singleton_inj.1 (List.append_cancel_left hi)
      exact ⟨h, he, rfl, hs, hb, fun _ _ hP => hP⟩
  | step source =>
    obtain ⟨latch, stats, he⟩ | ⟨j, latch, -, hs, hb, he⟩ := h.call_step_cases source
    · rw [he] at hi
      exact absurd (List.self_eq_append_right.1 hi) (List.cons_ne_nil _ _)
    · rw [he] at hi
      obtain rfl := List.singleton_inj.1 (List.append_cancel_left hi)
      exact ⟨_, he, rfl, hs, hb, fun k hC hP =>
        k.frame _ _ _ (k.issue hC h.pending_settle (k.settle hC hP))⟩

end History

/-! ## Where a history starts -/

/-- A valid configuration: every structure has room, and the window covers the buffer. -/
theorem Config.validate_eq_ok {config : Config} (h : config.validate = .ok ()) :
    0 < config.stationEntries ∧ 2 ≤ config.bufferEntries ∧ config.predictorState ≤ 3 ∧
      ∃ tags, config.tagSpace = .ok tags ∧ config.bufferEntries ≤ tags.window + 1 := by
  unfold validate at h
  split at h
  · cases h
  split at h
  · cases h
  cases ht : config.tagSpace with
  | error e => rw [ht] at h; cases h
  | ok tags =>
    simp only [ht] at h
    split at h
    · cases h
    split at h
    · cases h
    exact ⟨by omega, by omega, by omega, tags, rfl, by omega⟩

/-- A core that nothing has been asked of. -/
structure Core.Fresh (config : Config) (core : Core) : Prop where
  tags : config.tagSpace = .ok core.tags
  station : core.station = .empty core.tags config.stationEntries
  buffer : core.buffer = .empty config.bufferEntries
  bus : core.bus = .idle
  committed : core.committed = .empty
  latch : core.latch = none
  stats : core.stats = {}

/-- A valid configuration makes a core. -/
theorem Core.ofConfig_fresh {config : Config} (h : config.validate = .ok ()) :
    ∃ core, Core.ofConfig config = .ok core ∧ core.Fresh config := by
  obtain ⟨-, -, hp, tags, ht, -⟩ := Config.validate_eq_ok h
  have hc : Counter.ofState config.predictorState = .ok ⟨config.predictorState, hp⟩ := by
    rw [Counter.ofState, dif_pos hp]
  refine ⟨_, by rw [ofConfig, h, ht, hc], ?_⟩
  exact ⟨ht, rfl, rfl, rfl, rfl, rfl, rfl⟩

end OutOfOrder
