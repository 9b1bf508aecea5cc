import Mathlib
import OutOfOrder.Proofs.Ledger

/-!
# Chronicles

A `Chronicle` is a ledger with the number of the step in which each thing happened: when each
instruction was installed, and when each was issued, was broadcast and retired. Steps are numbered
by the cycle counter; an instruction that is dispatched directly is noted with the number of the
last step. `issueStep`, `broadcastStep` and `retireStep` read off it what became of the instruction
at a place, and `due` says when its entry has to retire.

Like a ledger, a chronicle goes on by phases (`call_dispatch_cases`, `call_step_cases`).
-/

namespace OutOfOrder

/-! ## What a step broadcasts and retires -/

/-- The result that was broadcast. -/
def Event.result? : Event → Option Result
  | broadcast r _ _ => some r
  | _ => none

/-- The entry that retired. -/
def Event.entry? : Event → Option ReorderBuffer.Entry
  | retired e => some e
  | _ => none

namespace Core

/-- The results that a cycle broadcast. -/
def Cycle.broadcasts (c : Cycle) : List Result := c.events.filterMap Event.result?

/-- The entries that a cycle reported as retired. -/
def Cycle.retirements (c : Cycle) : List ReorderBuffer.Entry := c.events.filterMap Event.entry?

theorem step_broadcasts (c : Core) (source : List Instruction) :
    (c.step source).broadcasts = c.bus.pending.toList := by
  have hdeliver : c.begun.deliver.events.filterMap Event.result? = c.bus.pending.toList := by
    cases h : c.bus.pending with
    | none => rw [deliver_idle (c := c.begun) h]; rfl
    | some r => rw [deliver_busy (c := c.begun) h]; rfl
  rw [Cycle.broadcasts, filterMap_step (fun _ _ => rfl) (fun _ => rfl) (fun _ _ _ => rfl), early,
    List.filterMap_append, List.filterMap_append, hdeliver,
    filterMap_retire (fun _ => rfl) (fun _ => rfl), filterMap_issue (fun _ => rfl) (fun _ _ => rfl),
    List.append_nil, List.append_nil]

theorem step_retirements (c : Core) (source : List Instruction) :
    (c.step source).retirements = (c.step source).retired.toList := by
  have hdeliver : c.begun.deliver.events.filterMap Event.entry? = [] := by
    cases h : c.bus.pending with
    | none => rw [deliver_idle (c := c.begun) h]; rfl
    | some r => rw [deliver_busy (c := c.begun) h]; rfl
  have hretire : ∀ d : Core, d.retire.events.filterMap Event.entry? = d.retire.answer.toList := by
    intro d
    unfold retire ReorderBuffer.retireEvents
    split
    · rfl
    · split
      · rfl
      · dsimp only
        split
        · split <;> rfl
        · rfl
  rw [Cycle.retirements, filterMap_step (fun _ _ => rfl) (fun _ => rfl) (fun _ _ _ => rfl), early,
    List.filterMap_append, List.filterMap_append, hdeliver, hretire,
    filterMap_issue (fun _ => rfl) (fun _ _ => rfl), List.append_nil, step_retired]
  rfl

/-- With the bus free, the result of what is issued is on the bus afterwards. -/
theorem requests_issue {c : Core} (hb : c.bus.pending = none) :
    (c.issue.events.filterMap Event.request?).length = c.issue.core.bus.pending.toList.length := by
  obtain ⟨-, stats, he, -⟩ | ⟨e, -, -, he⟩ | ⟨e, n, station, op, predictor, stats, -, -, -, -, hc,
    -, hr⟩ := c.issue_cases
  · rw [he]
    simp [hb]
  · rw [he]
    simp [hb]
  · rw [hc, hr, ResultBus.latch, if_pos (by rw [ResultBus.isFree, hb]; rfl)]
    rfl

theorem issued_length_le (c : Core) (source : List Instruction) :
    (c.step source).issued.length ≤ 1 := by
  rw [step_issued]
  obtain ⟨-, stats, he, -⟩ | ⟨e, -, -, he⟩ | ⟨e, n, station, op, predictor, stats, -, -, -, -, -,
    -, hr⟩ := c.settled.issue_cases
  · rw [he]
    exact Nat.zero_le 1
  · rw [he]
    exact Nat.zero_le 1
  · rw [hr]
    exact Nat.le_refl 1

end Core

/-! ## Chronicles -/

/-- A ledger with the steps in which things happened, each list in the order in which they did. -/
structure Chronicle where
  ledger : Ledger
  /-- The value of the cycle counter when each instruction was installed. -/
  entered : List Nat
  issued : List Nat
  broadcast : List (Nat × Result)
  retired : List Nat

namespace Chronicle

def start (core : Core) : Chronicle := ⟨.start core, [], [], [], []⟩

def cycles (k : Chronicle) : Nat := k.ledger.history.core.stats.cycles

def call (k : Chronicle) (c : Call) : Chronicle :=
  let ledger := k.ledger.call c
  let now := ledger.history.core.stats.cycles
  let installed := ledger.history.installed.drop k.ledger.history.installed.length
  let entered := k.entered ++ installed.map fun _ => now
  match c with
  | .dispatch _ => { k with ledger, entered }
  | .step source =>
    let c := k.ledger.history.core.step source
    { ledger, entered
      issued := k.issued ++ c.issued.map fun _ => now
      broadcast := k.broadcast ++ c.broadcasts.map fun r => (now, r)
      retired := k.retired ++ c.retired.toList.map fun _ => now }

def run (k : Chronicle) (calls : List Call) : Chronicle := calls.foldl call k

theorem ledger_call (k : Chronicle) (c : Call) : (k.call c).ledger = k.ledger.call c := by
  cases c <;> rfl

theorem ledger_run (k : Chronicle) (calls : List Call) :
    (k.run calls).ledger = k.ledger.run calls := by
  induction calls generalizing k with
  | nil => rfl
  | cons c calls ih =>
    rw [run, List.foldl_cons, ← run, ih, ledger_call]
    rfl

theorem run_append (k : Chronicle) (before after : List Call) :
    k.run (before ++ after) = (k.run before).run after := List.foldl_append

/-- How many instructions were issued before the one at a place. -/
def turn (k : Chronicle) (p : Nat) : Nat := k.ledger.sent.idxOf p

/-- The step in which the instruction at a place was issued. -/
def issueStep (k : Chronicle) (p : Nat) : Option Nat := k.issued[k.turn p]?

/-- The step in which its result was broadcast: results leave the bus in the order of issue. -/
def broadcastStep (k : Chronicle) (p : Nat) : Option Nat := k.broadcast[k.turn p]?.map (·.1)

/-- The step in which its entry retired. -/
def retireStep (k : Chronicle) (p : Nat) : Option Nat := k.retired[p]?

/-- When the entry at a place has to retire: once its result was broadcast, and not in one step
with its elder. -/
def due (k : Chronicle) : Nat → Option Nat
  | 0 => k.broadcastStep 0
  | p + 1 => Option.map₂ (fun b r => max b (r + 1)) (k.broadcastStep (p + 1)) (k.retireStep p)

/-! ## Phases -/

def on (k : Chronicle) (h : History) : Chronicle := { k with ledger := k.ledger.on h }

/-- The phases before dispatch of step `n`. -/
def early (k : Chronicle) (n : Nat) : Chronicle :=
  let c := k.ledger.history.core
  { ledger := k.ledger.early
    entered := k.entered
    issued := k.issued ++ (c.settled.issue.events.filterMap Event.request?).map fun _ => n
    broadcast := k.broadcast ++ c.bus.pending.toList.map fun r => (n, r)
    retired := k.retired ++ c.begun.deliver.core.retire.answer.toList.map fun _ => n }

def install (k : Chronicle) (i : Instruction) (n : Nat) : Chronicle :=
  { k with ledger := k.ledger.install i, entered := k.entered ++ [n] }

theorem cycles_call_dispatch (k : Chronicle) (i : Instruction) :
    (k.call (.dispatch i)).cycles = k.cycles := k.ledger.history.core.cycles_dispatch i

theorem cycles_call_step (k : Chronicle) (source : List Instruction) :
    (k.call (.step source)).cycles = k.cycles + 1 := k.ledger.history.core.cycles_step source

theorem call_dispatch_cases (k : Chronicle) (i : Instruction) :
    (∃ stats, k.call (.dispatch i) = k.on (k.ledger.history.frame k.ledger.history.core.latch
        k.ledger.history.core.predictor stats)) ∨
      (k.ledger.history.core.buffer.isFull = false ∧
        k.call (.dispatch i) = k.install i k.cycles) := by
  have hn := k.cycles_call_dispatch i
  have hcall : k.call (.dispatch i) =
      { k with
        ledger := k.ledger.call (.dispatch i)
        entered := k.entered ++ ((k.ledger.call (.dispatch i)).history.installed.drop
          k.ledger.history.installed.length).map fun _ => (k.call (.dispatch i)).cycles } := rfl
  rw [hcall, hn]
  obtain ⟨stats, he⟩ | ⟨-, -, hf, he⟩ := k.ledger.call_dispatch_cases i
  · refine .inl ⟨stats, ?_⟩
    have hnone : (k.ledger.call (.dispatch i)).history.installed.drop
        k.ledger.history.installed.length = [] := by
      rw [he]
      exact List.drop_length
    rw [hnone, List.map_nil, List.append_nil, he]
    rfl
  · refine .inr ⟨hf, ?_⟩
    have hone : (k.ledger.call (.dispatch i)).history.installed.drop
        k.ledger.history.installed.length = [i] := by
      rw [he]
      exact List.drop_left
    rw [hone, he]
    rfl

theorem call_step_cases (k : Chronicle) (source : List Instruction) :
    (∃ latch stats, k.call (.step source) = (k.early (k.cycles + 1)).on
        (k.ledger.early.history.frame latch k.ledger.early.history.core.predictor stats)) ∨
      ∃ i latch, k.ledger.early.history.core.buffer.isFull = false ∧ k.call (.step source) =
        ((k.early (k.cycles + 1)).on (k.ledger.early.history.frame latch
          k.ledger.early.history.core.predictor k.ledger.early.history.core.stats)).install i
            (k.cycles + 1) := by
  have hn := k.cycles_call_step source
  have hcall : k.call (.step source) =
      { k.early (k.call (.step source)).cycles with
        ledger := k.ledger.call (.step source)
        entered := k.entered ++ ((k.ledger.call (.step source)).history.installed.drop
          k.ledger.history.installed.length).map fun _ => (k.call (.step source)).cycles } := by
    rw [call, early, ← Core.step_broadcasts _ source, ← Core.step_retired _ source,
      ← Core.step_issued _ source]
    rfl
  rw [hcall, hn]
  obtain ⟨latch, stats, he⟩ | ⟨i, latch, -, -, hf, he⟩ := k.ledger.call_step_cases source
  · refine .inl ⟨latch, stats, ?_⟩
    have hnone : (k.ledger.call (.step source)).history.installed.drop
        k.ledger.history.installed.length = [] := by
      rw [he]
      exact List.drop_length
    rw [hnone, List.map_nil, List.append_nil, he]
    rfl
  · refine .inr ⟨i, latch, hf, ?_⟩
    have hone : (k.ledger.call (.step source)).history.installed.drop
        k.ledger.history.installed.length = [i] := by
      rw [he]
      exact List.drop_left
    rw [hone, he]
    rfl

end Chronicle

end OutOfOrder
