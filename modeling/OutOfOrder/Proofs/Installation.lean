import Mathlib
import OutOfOrder.Proofs.Feed
import OutOfOrder.Proofs.Queue

/-!
# Dispatch does all or nothing

A dispatched instruction changes station, buffer and committed results together, or it is refused or
held back and changes none of them. `Dispatched` lists the four ends that a dispatch can come to,
each with the state that brings it about and the core that is left, and `History.Sound.dispatched`
says that there are no others.

Two notions of fullness meet here. The station compares a count that it keeps beside its slots, the
buffer compares two marks on a ring. In every state that can be reached they mean that no slot is
free (`Station.isFull_iff_forall`) and that there are as many entries as the configuration allows
(`History.Sound.isFull_iff`).
-/

namespace OutOfOrder

namespace Station

variable {s : Station}

theorem isFull_eq_false_iff_exists (hc : s.Counted) :
    s.isFull = false ↔ ∃ e ∈ s.slots, e.occupied = false := by
  rw [← Bool.not_eq_true, isFull_iff_forall hc]
  push Not
  simp only [Bool.not_eq_true]

/-- An instruction goes to the first free slot. -/
theorem push_lowestFree (hc : s.Counted) (hf : s.isFull = false) (i : Instruction) :
    ∃ n, s.LowestFree n ∧ (s.push i).1 =
      { s with
        slots := s.slots.set n ⟨true, i.opcode, i.tag, i.operands⟩
        occupied := s.occupied + 1 } := by
  obtain ⟨hall, -⟩ | ⟨n, hn, he⟩ := s.push_cases i
  · rw [(isFull_iff_forall hc).2 hall] at hf
    cases hf
  · exact ⟨n, hn, congrArg Prod.fst he⟩

end Station

namespace Core

/-! ## What an operand is installed as -/

/-- A slot that does not wait is installed as it is. One that waits takes the value, or in the third
slot the flags, of the oldest complete instruction in flight that carries its tag, or else of what
is committed under the tag, and goes on waiting if there is neither. -/
inductive Fills (c : Core) (k : Input) (slot : Operand) : Operand → Option Supply → Prop
  | given (h : slot.waiting = false) : Fills c k slot slot none
  | forwarded {o : Outcome} (h : slot.waiting = true)
      (hb : ReorderBuffer.Queue.lookup slot.tag c.buffer.entries = some o) :
      Fills c k slot
        { slot with waiting := false, value := if k = .f then o.flags else o.value }
        (some (.forwarded o))
  | committed {o : Outcome} (h : slot.waiting = true)
      (hb : ReorderBuffer.Queue.lookup slot.tag c.buffer.entries = none)
      (hc : c.committed.lookup slot.tag = some o) :
      Fills c k slot
        { slot with waiting := false, value := if k = .f then o.flags else o.value }
        (some (.committed o))
  | awaited (h : slot.waiting = true)
      (hb : ReorderBuffer.Queue.lookup slot.tag c.buffer.entries = none)
      (hc : c.committed.lookup slot.tag = none) : Fills c k slot slot none

theorem fills_resolve (c : Core) (k : Input) (slot : Operand) :
    c.Fills k slot (c.resolve k slot).1 (c.resolve k slot).2 := by
  have hlookup : ReorderBuffer.Queue.lookup slot.tag c.buffer.entries = c.buffer.lookup slot.tag :=
    ReorderBuffer.Queue.lookup_eq _ _
  unfold resolve supply?
  cases hw : slot.waiting with
  | false => exact .given hw
  | true =>
    have htake (o : Outcome) : (slot.resolve slot.tag (o.read k)).1 =
        { slot with waiting := false, value := if k = .f then o.flags else o.value } := by
      simp [Operand.resolve, Operand.waitsOn, hw, Outcome.read_eq]
    cases hb : c.buffer.lookup slot.tag with
    | some o =>
      simp only [if_true, Supply.outcome, htake]
      exact .forwarded hw (hlookup.trans hb)
    | none =>
      cases hc : c.committed.lookup slot.tag with
      | some o =>
        simp only [if_true, Option.map_some, Supply.outcome, htake]
        exact .committed hw (hlookup.trans hb) hc
      | none => exact .awaited hw (hlookup.trans hb) hc

/-! ## The ends of a dispatch -/

/-- What the core `d` has of the instruction that was installed in `c`: one slot, one entry, the
tag, and the counters. All else is as it was. -/
structure Installs (c : Core) (i : Instruction) (operands : Operands Operand)
    (supplies : Operands (Option Supply)) (d : Core) : Prop where
  fills : ∀ k, c.Fills k (i.operands.get k) (operands.get k) (supplies.get k)
  slot : ∃ n, c.station.LowestFree n ∧
    d.station =
      { c.station with
        slots := c.station.slots.set n ⟨true, i.opcode, i.tag, operands⟩
        occupied := c.station.occupied + 1 }
  entry : d.buffer.entries = c.buffer.entries ++ [⟨true, i.opcode, i.tag, ⟨0, 0⟩⟩]
  capacity : d.buffer.capacity = c.buffer.capacity
  reclaimed : ∀ t, d.committed.lookup t = if t = i.tag then none else c.committed.lookup t
  bus : d.bus = c.bus
  predictor : d.predictor = c.predictor
  latch : d.latch = c.latch
  tracing : d.tracing = c.tracing
  stats : d.stats =
    { c.stats with
      dispatched := c.stats.dispatched + 1
      forwarded := c.stats.forwarded +
        [supplies.a, supplies.b, supplies.f].countP (· matches some (.forwarded _))
      committed := c.stats.committed +
        [supplies.a, supplies.b, supplies.f].countP (· matches some (.committed _)) }

/-- The ends that a dispatch can come to, where the buffer has room for so many entries. -/
inductive Dispatched (room : Nat) (c : Core) (i : Instruction) :
    Except CoreError (Option Stall) → Core → Prop
  | refused (hd : i.opcode.decode = none) :
      Dispatched room c i (.error (.unrecognizedOpcode i.tag i.opcode)) c
  | stationFull (hd : i.opcode.decode ≠ none) (hs : ∀ e ∈ c.station.slots, e.occupied = true) :
      Dispatched room c i (.ok (some .stationFull))
        { c with stats := { c.stats with stationStalls := c.stats.stationStalls + 1 } }
  | bufferFull (hd : i.opcode.decode ≠ none) (hs : ∃ e ∈ c.station.slots, e.occupied = false)
      (hb : c.buffer.entries.length = room) :
      Dispatched room c i (.ok (some .bufferFull))
        { c with stats := { c.stats with bufferStalls := c.stats.bufferStalls + 1 } }
  | installed {operands : Operands Operand} {supplies : Operands (Option Supply)} {d : Core}
      (hd : i.opcode.decode ≠ none) (hs : ∃ e ∈ c.station.slots, e.occupied = false)
      (hb : c.buffer.entries.length < room) (hi : c.Installs i operands supplies d) :
      Dispatched room c i (.ok none) d

/-- The supplies of one kind, counted where they are found. -/
theorem countP_supplies_eq (c : Core) (i : Instruction) {p : Supply → Bool}
    {q : Option Supply → Bool} (hnone : q none = false) (hsome : ∀ s, q (some s) = p s) :
    (c.supplies i).countP p =
      (i.operands.map fun k slot => (c.resolve k slot).2).toList.countP q := by
  rw [supplies, List.countP_filterMap]
  refine List.countP_congr fun s _ => ?_
  cases s with
  | none => simp [hnone]
  | some s => simp [hsome]

theorem installs_install {c : Core} (hc : c.station.Counted) (hs : c.station.isFull = false)
    (hb : c.buffer.isFull = false) (i : Instruction) :
    c.Installs i (c.resolved i).operands (i.operands.map fun k slot => (c.resolve k slot).2)
      (c.install i) where
  fills := by
    intro k
    rw [get_resolved, Operands.get_map]
    exact c.fills_resolve k (i.operands.get k)
  slot := Station.push_lowestFree hc hs (c.resolved i)
  entry := c.buffer.entries_push i.opcode i.tag hb
  capacity := c.buffer.capacity_push i.opcode i.tag
  reclaimed := fun t => c.committed.lookup_reclaim i.tag t
  bus := rfl
  predictor := rfl
  latch := rfl
  tracing := rfl
  stats := by
    have hforwarded := c.countP_supplies_eq i (p := Supply.isForwarded)
      (q := (· matches some (.forwarded _))) rfl (by rintro (_ | _) <;> rfl)
    have hcommitted := c.countP_supplies_eq i (p := Supply.isCommitted)
      (q := (· matches some (.committed _))) rfl (by rintro (_ | _) <;> rfl)
    rw [install, hforwarded, hcommitted]
    rfl

end Core

namespace History.Sound

variable {config : Config} {h : History}

/-- The marks of the ring tell whether the buffer holds as much as the configuration allows. -/
theorem isFull_iff (hs : Sound config h) :
    h.core.buffer.isFull = true ↔ h.core.buffer.entries.length = config.bufferEntries - 1 := by
  have hlt := h.core.buffer.length_entries_lt
  rw [← Bool.not_eq_false, h.core.buffer.isFull_eq_false_iff, hs.bufferSize]
  rw [hs.bufferSize] at hlt
  omega

theorem dispatched (hs : Sound config h) (i : Instruction) :
    h.core.Dispatched (config.bufferEntries - 1) i (h.core.dispatch i).answer
      (h.core.dispatch i).core := by
  cases hd : i.opcode.decode with
  | none =>
    rw [Core.dispatch_refused hd]
    exact .refused hd
  | some op =>
    have hne : i.opcode.decode ≠ none := by rw [hd]; nofun
    have hsome : i.opcode.decode.isSome = true := by rw [hd]; rfl
    cases hstation : h.core.station.isFull with
    | true =>
      rw [Core.dispatch_stationFull hsome hstation]
      exact .stationFull hne ((Station.isFull_iff_forall hs.counted).1 hstation)
    | false =>
      have hfree := (Station.isFull_eq_false_iff_exists hs.counted).1 hstation
      cases hbuffer : h.core.buffer.isFull with
      | true =>
        rw [Core.dispatch_bufferFull hsome hstation hbuffer]
        exact .bufferFull hne hfree (hs.isFull_iff.1 hbuffer)
      | false =>
        rw [Core.dispatch_room hsome hstation hbuffer]
        have hroom : h.core.buffer.entries.length < config.bufferEntries - 1 := by
          rw [h.core.buffer.isFull_eq_false_iff, hs.bufferSize] at hbuffer
          omega
        exact .installed hne hfree hroom (Core.installs_install hs.counted hstation hbuffer i)

end History.Sound

/-- In every state that any calls lead to, a dispatch does all of its work or none. It fails exactly
if the instruction does not decode, and then changes nothing. Otherwise it holds the instruction
back for the station exactly if no slot is free, whatever the buffer holds, and else for the buffer
exactly if that holds all the entries it may; it then counts that it did so and changes nothing
else. Otherwise it installs the instruction in both, as `Core.Installs` has it. -/
theorem dispatch_all_or_nothing {config : Config} (valid : config.validate = .ok ()) :
    ∃ core, Core.ofConfig config = .ok core ∧
      ∀ calls i,
        let c := ((History.start core).run calls).core
        let d := c.dispatch i
        let decodes := i.opcode.decode ≠ none
        let slotFree := ∃ e ∈ c.station.slots, e.occupied = false
        let held := c.buffer.entries.length
        ((∃ e, d.answer = .error e) ↔ ¬ decodes) ∧
        (d.answer = .ok (some .stationFull) ↔ decodes ∧ ¬ slotFree) ∧
        (d.answer = .ok (some .bufferFull) ↔
          decodes ∧ slotFree ∧ held = config.bufferEntries - 1) ∧
        (d.answer = .ok none ↔ decodes ∧ slotFree ∧ held < config.bufferEntries - 1) ∧
        (∀ e, d.answer = .error e → e = .unrecognizedOpcode i.tag i.opcode ∧ d.core = c) ∧
        (d.answer = .ok (some .stationFull) → d.core =
          { c with stats := { c.stats with stationStalls := c.stats.stationStalls + 1 } }) ∧
        (d.answer = .ok (some .bufferFull) → d.core =
          { c with stats := { c.stats with bufferStalls := c.stats.bufferStalls + 1 } }) ∧
        (d.answer = .ok none → ∃ operands supplies, c.Installs i operands supplies d.core) := by
  obtain ⟨core, hcore, hf⟩ := Core.ofConfig_fresh valid
  refine ⟨core, hcore, ?_⟩
  intro calls i c d decodes slotFree held
  have hd : c.Dispatched (config.bufferEntries - 1) i d.answer d.core :=
    (History.Sound.run valid hf calls).dispatched i
  generalize d.answer = answer at hd ⊢
  generalize d.core = left at hd ⊢
  cases hd with
  | refused hd => simp [decodes, hd]
  | stationFull hd hs =>
    have hnone : ¬ slotFree := by simpa [slotFree] using hs
    simp [decodes, hd, hnone]
  | bufferFull hd hs hb =>
    have hfree : slotFree := hs
    have hheld : held = config.bufferEntries - 1 := hb
    simp [decodes, hd, hfree, hheld]
  | installed hd hs hb hi =>
    have hfree : slotFree := hs
    have hboth : ∃ operands supplies, c.Installs i operands supplies left := ⟨_, _, hi⟩
    have hheld : held < config.bufferEntries - 1 := hb
    simpa [decodes, hd, hfree, hheld, hheld.ne] using hboth

/-- The first operand is found in flight, the second not at all, and the third takes its flags from
what is committed under the tag that the instruction itself takes over. -/
theorem dispatch_all_or_nothing_operands :
    ∃ core, Core.ofConfig {} = .ok core ∧
      let i n a b f := Instruction.of (.alu .add) n a b f
      let done n := i n (.ready (-1)) (.ready 6) (.ready 0)
      let stuck := i 1 (.waitingOn ⟨7⟩) (.ready 0) (.ready 0)
      let next := i 0 (.waitingOn ⟨2⟩) (.waitingOn ⟨1⟩) (.waitingOn ⟨0⟩)
      let c := ((History.start core).run
        [.dispatch (done 0), .step [], .step [], .dispatch stuck, .dispatch (done 2), .step [],
          .step []]).core
      let d := c.dispatch next
      d.answer = .ok none ∧ c.committed.lookup ⟨0⟩ = some ⟨5, 1⟩ ∧
        c.buffer.entries.map (fun e => (e.tag, e.waiting)) = [(⟨1⟩, true), (⟨2⟩, false)] ∧
        d.core.station.slots[1]? = some ⟨true, next.opcode, ⟨0⟩,
          ⟨⟨false, ⟨2⟩, 5⟩, ⟨true, ⟨1⟩, 0⟩, ⟨false, ⟨0⟩, 1⟩⟩⟩ ∧
        d.core.buffer.entries = c.buffer.entries ++ [⟨true, next.opcode, ⟨0⟩, ⟨0, 0⟩⟩] ∧
        d.core.committed.lookup ⟨0⟩ = none ∧ d.core.bus = c.bus ∧
        (c.stats.forwarded, d.core.stats.forwarded) = (0, 1) ∧
        (c.stats.committed, d.core.stats.committed) = (0, 1) := by
  obtain ⟨core, hc, hl⟩ := dispatch_all_or_nothing (show Config.validate {} = .ok () by decide)
  obtain rfl := Except.ok.inj (hc.symm.trans rfl)
  refine ⟨_, hc, ?_⟩
  intro i done stuck next c d
  have hanswer : d.answer = .ok none := by decide +kernel
  obtain ⟨-, -, -, -, -, -, -, hinstalled⟩ := hl [.dispatch (done 0), .step [], .step [],
    .dispatch stuck, .dispatch (done 2), .step [], .step []] next
  obtain ⟨operands, supplies, hi⟩ := hinstalled hanswer
  exact ⟨hanswer, by decide +kernel, by decide +kernel, by decide +kernel, hi.entry,
    hi.reclaimed ⟨0⟩, hi.bus, by decide +kernel, by decide +kernel⟩

end OutOfOrder
