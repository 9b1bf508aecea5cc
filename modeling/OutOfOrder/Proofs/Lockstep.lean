import Mathlib
import OutOfOrder.Proofs.Progress

/-!
# A core in lockstep with a pipeline

When a core is fed a program whose operands name earlier instructions, and cycles are all that is
asked of it, then at the end of a cycle at most one instruction is in the station and at most one
has its result on the bus. So the core moves like a pipeline of two places (`Pipeline.next`), in
which only a buffer for a single instruction makes a difference: the one on the bus leaves it in
time for the next to enter, the one in the station does not. `Lockstep.step` says that a cycle is
one move of the pipeline and reports what the pipeline says.
-/

namespace OutOfOrder

theorem length_toList_of_map {α β γ : Type} {f : α → γ} {g : β → γ} {a : Option α} {b : Option β}
    (h : a.map f = b.map g) : a.toList.length = b.toList.length := by
  cases a <;> cases b
  · rfl
  · cases h
  · cases h
  · rfl

/-- The instruction whose result is on the bus, the one in the station, and those to come. -/
structure Pipeline where
  flying : Option Instruction
  held : Option Instruction
  rest : List Instruction

namespace Pipeline

/-- Whether a buffer has a place left in the dispatch phase. A wide one has room for two. -/
def room (wide : Bool) (p : Pipeline) : Bool := wide || p.held.isNone

def entering (wide : Bool) (p : Pipeline) : Option Instruction :=
  if p.room wide then p.rest.head? else none

def stall (wide : Bool) (p : Pipeline) : Option Stall :=
  if p.room wide then none else p.rest.head?.map fun _ => .bufferFull

def next (wide : Bool) (p : Pipeline) : Pipeline where
  flying := p.held
  held := p.entering wide
  rest := if p.room wide then p.rest.tail else p.rest

def report (wide : Bool) (p : Pipeline) (cycle : Nat) : CycleReport where
  cycle := cycle
  broadcast := p.flying.map (·.tag)
  retired := p.flying.map (·.tag)
  issued := p.held.map (·.tag)
  dispatched := (p.entering wide).map (·.tag)
  stall := p.stall wide

theorem entering_append (wide : Bool) (p : Pipeline) :
    (p.entering wide).toList ++ (p.next wide).rest = p.rest := by
  unfold entering next
  cases p.room wide with
  | false => rfl
  | true => cases p.rest <;> simp

theorem toList_entering (wide : Bool) (p : Pipeline) :
    (if (p.entering wide).isSome then p.rest.head?.toList else []) = (p.entering wide).toList := by
  unfold entering
  cases p.room wide with
  | false => rfl
  | true => cases p.rest <;> rfl

end Pipeline

/-- Whether the buffer has room for more than one instruction. -/
def Config.wide (config : Config) : Bool := 3 ≤ config.bufferEntries

namespace History

/-! ## Phases with at most one instruction in each place -/

/-- The oldest entry retires unless it is the one of the instruction in the station. -/
theorem Located.retire_head {config : Config} {h : History} (hl : Located config h)
    (hb : h.core.bus.pending = none) {flying held : Option Tag}
    (he : h.core.buffer.entries.map (·.tag) = flying.toList ++ held.toList)
    (hs : h.core.station.live.map (·.tag) = held.toList) :
    h.core.retire.answer.map (·.tag) = flying := by
  have hw := hl.waiting
  have hd := hl.distinct
  rw [hb, hs, Option.toList_none, List.map_nil, List.append_nil] at hw
  have hwait : ∀ e ∈ h.core.buffer.entries, e.waiting = true ↔ e.tag ∈ held.toList := by
    intro e hm
    rw [← hw.mem_iff, ReorderBuffer.mem_waitingTags]
    refine ⟨fun hew => ⟨e, hm, hew, rfl⟩, ?_⟩
    rintro ⟨x, hx, hxw, ht⟩
    rwa [← List.inj_on_of_nodup_map hd hx hm ht]
  rw [he] at hd
  cases hr : h.core.buffer.retire with
  | none =>
    rw [(Core.retire_none hr).1]
    cases flying with
    | none => rfl
    | some t =>
      obtain ⟨x, l, hx, rfl, -⟩ := List.map_eq_cons_iff.1 he
      have hxw := ReorderBuffer.retire_eq_none.1 hr x (by rw [hx]; rfl)
      rw [hwait x (hx ▸ List.mem_cons_self)] at hxw
      exact absurd hxw (List.nodup_cons.1 hd).1
  | some q =>
    obtain ⟨e, buffer⟩ := q
    obtain ⟨hx, hew, -⟩ := ReorderBuffer.retire_eq_some hr
    rw [Core.retire_some hr]
    rw [hx, List.map_cons] at he
    cases flying with
    | none =>
      rw [Option.toList_none, List.nil_append] at he
      have hm : e.tag ∈ held.toList := he ▸ List.mem_cons_self
      rw [← hwait e (hx ▸ List.mem_cons_self), hew] at hm
      cases hm
    | some t => exact congrArg some (List.cons.inj he).1

/-- The one instruction in the station is issued. -/
theorem Ordered.issue_single {config : Config} {h : History} (ho : Ordered config h)
    (hb : h.core.bus.pending = none) {held : Option Tag}
    (hs : h.core.station.live.map (·.tag) = held.toList) :
    h.core.issue.answer = .ok held ∧ h.issue.core.station.live = [] ∧
      h.issue.core.bus.pending.map (·.tag) = held := by
  have ha := Core.issue_answer ho.decodes
  have hi : h.issue.issued = h.issued ++ h.core.issue.events.filterMap Event.request? := rfl
  obtain ⟨hl, stats, he⟩ | ⟨e, n, station, op, predictor, stats, hr, hst, he⟩ := ho.issue_cases hb
  · have hn : held = none := by
      rw [hl] at hs
      exact Option.toList_eq_nil_iff.1 hs.symm
    rw [he] at hi ⊢
    rw [List.self_eq_append_right.1 hi] at ha
    exact ⟨hn ▸ ha, hl, by rw [hn]; exact congrArg _ hb⟩
  · have hp := Station.live_issue hr hst
    have hm : e.tag ∈ held.toList := hs ▸ List.mem_map_of_mem (Station.mem_live_of_oldestReady hr)
    obtain rfl : held = some e.tag := Option.mem_toList.1 hm
    have hlen : station.live.length = 0 := by
      have h1 := congrArg List.length hs
      have h2 := hp.length_eq
      rw [List.length_map, Option.toList_some] at h1
      rw [List.length_cons] at h2
      exact Nat.succ.inj (h2.symm.trans h1)
    rw [he] at hi ⊢
    rw [← List.append_cancel_left hi] at ha
    exact ⟨ha, List.length_eq_zero_iff.1 hlen, rfl⟩

/-! ## Lockstep -/

/-- Between two cycles a core has what the pipeline says, and the instructions that it still has to
dispatch are those that are to come. -/
structure Lockstep (config : Config) (program : Program) (p : Pipeline) (h : History)
    (source : List Instruction) : Prop extends Ordered config h where
  fed : h.installed ++ p.rest = program
  rest : h.core.latch.toList ++ source = p.rest
  split : ∃ done, h.installed = done ++ (p.flying.toList ++ p.held.toList) ∧
    done.length = h.retired.length
  held : h.core.station.live.map (·.tag) = (p.held.map (·.tag)).toList
  flying : h.core.bus.pending.map (·.tag) = p.flying.map (·.tag)

namespace Lockstep

theorem start {config : Config} {core : Core} (valid : config.validate = .ok ())
    (hf : core.Fresh config) (program : Program) :
    Lockstep config program ⟨none, none, program⟩ (History.start core) program where
  toOrdered := .start valid hf
  fed := rfl
  rest := by simp [History.start, hf.latch]
  split := ⟨[], rfl, rfl⟩
  held := by simp [History.start, hf.station]
  flying := by simp [History.start, hf.bus, ResultBus.idle]

variable {config : Config} {program : Program} {p : Pipeline} {h : History}
  {source : List Instruction}

theorem offered_eq (hl : Lockstep config program p h source) :
    h.core.offered source = p.rest.head? := by
  rw [← hl.rest, Core.offered]
  cases h.core.latch <;> rfl

theorem source_eq (hl : Lockstep config program p h source) :
    (if h.core.latch.isNone then source.tail else source) = p.rest.tail := by
  rw [← hl.rest]
  cases h.core.latch <;> rfl

theorem tags_entries (hs : Sound config h) {done more : List Instruction}
    (hi : h.installed = done ++ more) (hn : done.length = h.retired.length) :
    h.core.buffer.entries.map (·.tag) = more.map (·.tag) := by
  rw [hs.entries_tags, hi, List.map_append, List.drop_left' (by simpa using hn)]

section
variable {tags : TagSpace} (valid : config.validate = .ok ()) (ht : config.tagSpace = .ok tags)
  (hc : Spaced tags.window (program.map (·.tag)) ∧ Supplied program)
include valid ht hc

/-- The first three phases: the instruction on the bus leaves, and the one in the station takes its
place. -/
theorem early (hl : Lockstep config program p h source) :
    h.core.begun.deliver.core.retire.answer.map (·.tag) = p.flying.map (·.tag) ∧
      h.core.settled.issue.answer = .ok (p.held.map (·.tag)) ∧
      Ordered config h.settle.issue ∧ h.settle.issue.core.station.live = [] ∧
      h.settle.issue.core.bus.pending.map (·.tag) = p.held.map (·.tag) ∧
      h.settle.issue.core.buffer.entries.map (·.tag) = (p.held.map (·.tag)).toList := by
  have k := Ordered.kept valid ht
  have hC : Spaced tags.window (h.installed.map (·.tag)) ∧ Supplied h.installed :=
    k.closed (hl.fed.symm ▸ hc)
  obtain ⟨done, hd, hn⟩ := hl.split
  -- broadcast and retirement
  have h1 : Ordered config h.begun.deliver := k.deliver (h := h.begun) hC (hl.toOrdered.frame _ _ _)
  have hlive1 := (tags_live_deliver h.begun).trans hl.held
  have hentries1 : h.begun.deliver.core.buffer.entries.map (·.tag) =
      (p.flying.map (·.tag)).toList ++ (p.held.map (·.tag)).toList := by
    rw [tags_entries h1.toSound hd hn]
    cases p.flying <;> cases p.held <;> rfl
  have hretire := h1.toLocated.retire_head h.begun.pending_deliver hentries1 hlive1
  have hlen : (done ++ p.flying.toList).length = h.settle.retired.length := by
    change _ = (h.retired ++ h.core.begun.deliver.core.retire.answer.toList).length
    rw [List.length_append, List.length_append, hn]
    exact congrArg (h.retired.length + ·) (length_toList_of_map hretire).symm
  -- issue
  have h2 : Ordered config h.settle := k.retire (h := h.begun.deliver) hC h1
  have hd2 : h.settle.installed = (done ++ p.flying.toList) ++ p.held.toList := by
    rw [List.append_assoc]
    exact hd
  have hentries2 := tags_entries h2.toSound hd2 hlen
  obtain ⟨ha, hlive, hbus⟩ := h2.issue_single h.pending_settle ((tags_live_settle h).trans hl.held)
  refine ⟨hretire, ha, k.issue (h := h.settle) hC h.pending_settle h2, hlive, hbus, ?_⟩
  rw [(h2.issue_shorter h.pending_settle).2, hentries2]
  cases p.held <;> rfl

/-- The dispatch phase: the next instruction enters if there is room for it. -/
theorem late (hl : Lockstep config program p h source)
    (hd : ∀ i ∈ program, i.opcode.decode.isSome = true) :
    (h.core.late source).answer =
        .ok ((p.entering config.wide).map (·.tag), p.stall config.wide) ∧
      (h.core.late source).core.latch.toList ++ p.rest.tail = (p.next config.wide).rest ∧
      (h.core.late source).core.station.live.map (·.tag) =
        ((p.entering config.wide).map (·.tag)).toList ∧
      (h.core.late source).core.bus = h.settle.issue.core.bus := by
  obtain ⟨-, -, ho, hlive, -, hentries⟩ := hl.early valid ht hc
  obtain ⟨hsize, hbuf, -⟩ := Config.validate_eq_ok valid
  have hstation : h.settle.issue.core.station.isFull = false := by
    rw [← Bool.not_eq_true, Station.isFull_iff ho.counted, hlive, ho.stationSize, List.length_nil]
    exact hsize.ne
  have hbuffer : h.settle.issue.core.buffer.isFull = false ↔ p.room config.wide = true := by
    have hn := congrArg List.length hentries
    rw [List.length_map] at hn
    rw [ReorderBuffer.isFull_eq_false_iff, ho.bufferSize, hn, Pipeline.room, Config.wide,
      Bool.or_eq_true, decide_eq_true_eq]
    cases p.held <;> simp <;> omega
  have hoff := hl.offered_eq
  cases hr : p.rest with
  | nil =>
    rw [hr] at hoff
    obtain ⟨-, he⟩ | ⟨i, hi, -⟩ := h.core.late_cases source
    · rw [he]
      simp [Pipeline.entering, Pipeline.stall, Pipeline.next, hr]
      exact ⟨hlive, rfl⟩
    · rw [hoff] at hi
      cases hi
  | cons i rest =>
    rw [hr] at hoff
    have hdec := hd i (hl.fed ▸ List.mem_append_right _ (hr ▸ List.mem_cons_self))
    rw [Core.late_eq hoff]
    by_cases hroom : p.room config.wide = true
    · have he := Core.dispatch_room (c := { h.core.settled.issue.core with latch := none }) hdec
        hstation (hbuffer.2 hroom)
      have hpush := (Station.live_push ho.counted hstation
        (Core.resolved { h.core.settled.issue.core with latch := none } i)).map (·.tag)
      rw [hlive] at hpush
      simp only [he, Pipeline.entering, Pipeline.stall, Pipeline.next, hroom, hr]
      exact ⟨rfl, rfl, List.perm_singleton.1 hpush, rfl⟩
    · have he := Core.dispatch_bufferFull (c := { h.core.settled.issue.core with latch := none })
        hdec hstation (by rwa [← hbuffer, Bool.not_eq_false] at hroom)
      simp only [he, Pipeline.entering, Pipeline.stall, Pipeline.next, hroom, hr]
      exact ⟨rfl, rfl, congrArg (List.map (·.tag)) hlive, rfl⟩

/-- A cycle is one move of the pipeline, and reports it. -/
theorem step (hl : Lockstep config program p h source)
    (hd : ∀ i ∈ program, i.opcode.decode.isSome = true) :
    (h.core.step source).outcome = .ok (p.report config.wide (h.core.stats.cycles + 1)) ∧
      Lockstep config program (p.next config.wide) (h.call (.step source))
        (h.core.step source).source ∧
      (h.call (.step source)).core.stats.cycles = h.core.stats.cycles + 1 := by
  obtain ⟨hretire, hissue, -, -, hbus, -⟩ := hl.early valid ht hc
  obtain ⟨hlate, hrest, hheld, hlatebus⟩ := hl.late valid ht hc hd
  have hcycles := Core.cycles_late h.core source
  obtain ⟨ho, hcore, hsource⟩ := Core.step_ok hissue hlate hcycles
  obtain ⟨done, hdone, hn⟩ := hl.split
  have hinst : (h.call (.step source)).installed =
      h.installed ++ (p.entering config.wide).toList := by
    have hi : (h.core.step source).installs = (p.entering config.wide).isSome := by
      rw [Core.Cycle.installs, ho]
      exact Option.isSome_map
    rw [call, hi, hl.offered_eq, p.toList_entering]
  have hfed : (h.call (.step source)).installed ++ (p.next config.wide).rest = program := by
    rw [hinst, List.append_assoc, p.entering_append, hl.fed]
  have hcall : (h.call (.step source)).core = (h.core.late source).core := hcore
  have k := Ordered.kept valid ht
  refine ⟨?_, ⟨k.call _ (k.closed (hfed.symm ▸ hc)) hl.toOrdered, hfed, ?_, ?_, ?_, ?_⟩, ?_⟩
  · rw [ho, Core.report, hretire, hl.flying]
    rfl
  · rw [hcall, hsource, hl.source_eq]
    exact hrest
  · refine ⟨done ++ p.flying.toList, ?_, ?_⟩
    · rw [hinst, hdone]
      simp [Pipeline.next]
    · change _ = (h.retired ++ (h.core.step source).retired.toList).length
      rw [h.core.step_retired, List.length_append, List.length_append, hn,
        length_toList_of_map hretire]
  · rw [hcall]
    exact hheld
  · rw [hcall, hlatebus]
    exact hbus
  · rw [hcall]
    exact hcycles

end

end Lockstep

end History

end OutOfOrder
