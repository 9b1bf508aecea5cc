import Mathlib
import OutOfOrder.Proofs.Contract
import OutOfOrder.Proofs.History
import OutOfOrder.Proofs.Renaming

/-!
# The core under other names

Two cores that are the same up to the names of their tags stay so when they are asked the same, and
their answers are the same up to the names (`Core.Renamed.dispatch`, `Core.Renamed.step`). One lemma
per phase says so, with the counters of both cores equal, and a cycle is put together from them.
-/

namespace OutOfOrder

/-! ## Cores -/

/-- Cores that differ in the names of their tags alone. All else is the same in both, the counters
too. -/
structure Core.Renamed (s : TagSpace) (f : Tag → Tag) (c c' : Core) : Prop where
  station : c.station.Renamed s f c'.station
  buffer : c.buffer.Renamed s f c'.buffer
  bus : c.bus.Renamed s f c'.bus
  committed : c.committed.Renamed s f c'.committed
  predictor : c'.predictor = c.predictor
  latch : c'.latch = c.latch.map (Instruction.rename f)
  tracing : c'.tracing = c.tracing
  stats : c'.stats = c.stats
  within : ∀ i, c.latch = some i → i.Within s

/-- The answer of a phase, in the other names. -/
def Core.renameAnswer {α : Type} (f : Tag → Tag) (g : α → α) (answer : Except CoreError α) :
    Except CoreError α :=
  (answer.map g).mapError (CoreError.rename f)

/-- Cycles that did the same up to the names. -/
structure Core.Cycle.Renamed (s : TagSpace) (f : Tag → Tag) (x x' : Cycle) : Prop where
  core : x.core.Renamed s f x'.core
  source : x'.source = x.source.map (Instruction.rename f)
  retired : x'.retired = x.retired.map (ReorderBuffer.Entry.rename f)
  outcome : x'.outcome = Core.renameAnswer f (CycleReport.rename f) x.outcome
  issued : x'.issued = x.issued.map (Request.rename f)

namespace Core

variable {s : TagSpace} {f : Tag → Tag} {c c' : Core}

/-- A core that nothing has been asked of holds no tags. -/
theorem Fresh.renamed {config : Config} (hf : c.Fresh config) : c.Renamed c.tags f c where
  station := by
    refine ⟨rfl, rfl, rfl, List.forall₂_same.2 fun e he => ?_⟩
    rw [hf.station] at he
    obtain rfl := (List.mem_replicate.1 he).2
    exact ⟨rfl, rfl, nofun, fun k => ⟨rfl, rfl, by cases k <;> nofun⟩⟩
  buffer := by
    refine ⟨rfl, ?_⟩
    rw [hf.buffer, ReorderBuffer.entries_empty]
    exact .nil
  bus := by rw [hf.bus]; exact ⟨rfl, nofun⟩
  committed := by
    rw [hf.committed]
    exact ⟨fun _ _ => rfl, nofun, nofun⟩
  predictor := rfl
  latch := by rw [hf.latch]; rfl
  tracing := rfl
  stats := rfl
  within := by rw [hf.latch]; nofun

/-- The result of what was issued goes to the bus. -/
def sent (c : Core) (r : Result) : Core :=
  { c with bus := (c.bus.latch r).1, stats := { c.stats with issued := c.stats.issued + 1 } }

section
variable {e : Station.Entry} {n : Nat} (ho : c.station.oldestReady = some (e, n))
include ho

theorem issue_refused (hd : e.opcode.decode = none) :
    c.issue = ⟨c, .error (.unrecognizedOpcode e.tag e.opcode), []⟩ := by
  simp [Core.issue, Station.peek, Station.issue, ho, hd]

theorem issue_sent {op : Operation} (hd : e.opcode.decode = some op) :
    c.issue =
      let done := { c with station := c.station.release e n }.execute op e.request
      ⟨done.core.sent ⟨e.tag, done.answer⟩, .ok (some e.tag),
        .issued e.request :: done.events⟩ := by
  have hp : c.station.peek = some e := by rw [Station.peek, ho]; rfl
  have hi : c.station.issue = some (e.request, c.station.release e n) := by
    rw [Station.issue, ho]; rfl
  simp only [Core.issue, hp, hi, hd]
  rfl

end

namespace Renamed

variable (h : c.Renamed s f c')
include h

theorem count (stats : Stats) : { c with stats }.Renamed s f { c' with stats } :=
  ⟨h.station, h.buffer, h.bus, h.committed, h.predictor, h.latch, h.tracing, rfl, h.within⟩

theorem relatch {latch : Option Instruction} (hl : ∀ i, latch = some i → i.Within s) :
    { c with latch }.Renamed s f { c' with latch := latch.map (Instruction.rename f) } :=
  ⟨h.station, h.buffer, h.bus, h.committed, h.predictor, rfl, h.tracing, h.stats, hl⟩

theorem unlatch : { c with latch := none }.Renamed s f { c' with latch := none } :=
  h.relatch fun _ he => absurd he.symm (Option.some_ne_none _)

/-! ## Broadcast and retirement -/

theorem begun : c.begun.Renamed s f c'.begun := by
  rw [Core.begun, Core.begun, h.stats]
  exact h.count _

theorem deliver (hf : s.Faithful f) : c.deliver.core.Renamed s f c'.deliver.core := by
  have hpending := h.bus.pending
  cases hb : c.bus.pending with
  | none =>
    rw [hb, Option.map_none] at hpending
    rw [deliver_idle hb, deliver_idle hpending]
    exact h
  | some r =>
    rw [hb, Option.map_some] at hpending
    have hn := h.bus.names r hb
    obtain ⟨hstation, hcount⟩ := h.station.wake hf hn
    rw [deliver_busy hb, deliver_busy hpending]
    exact ⟨hstation, h.buffer.complete hf hn, ⟨rfl, nofun⟩, h.committed, h.predictor, h.latch,
      h.tracing, by rw [h.stats, hcount], h.within⟩

theorem retire (hf : s.Faithful f) :
    c.retire.core.Renamed s f c'.retire.core ∧
      c'.retire.answer = c.retire.answer.map (ReorderBuffer.Entry.rename f) := by
  obtain ⟨hr, hr'⟩ | ⟨e, rest, rest', hr, hr', hn, hrest⟩ := h.buffer.retire
  · simp only [Core.retire, hr, hr', h.buffer.isEmpty, h.stats]
    split
    · exact ⟨h, rfl⟩
    · exact ⟨h.count _, rfl⟩
  · rw [retire_some hr, retire_some hr']
    exact ⟨⟨h.station, hrest, h.bus, h.committed.commit hf hn e.outcome, h.predictor, h.latch,
      h.tracing, by rw [h.stats], h.within⟩, rfl⟩

theorem settled (hf : s.Faithful f) : c.settled.Renamed s f c'.settled :=
  ((h.begun.deliver hf).retire hf).1

theorem retired (hf : s.Faithful f) :
    c'.begun.deliver.core.retire.answer =
      c.begun.deliver.core.retire.answer.map (ReorderBuffer.Entry.rename f) :=
  ((h.begun.deliver hf).retire hf).2

/-! ## Issue -/

theorem release {e e' : Station.Entry} (he : e.Renamed s f e') (n : Nat) :
    { c with station := c.station.release e n }.Renamed s f
      { c' with station := c'.station.release e' n } :=
  ⟨h.station.release he n, h.buffer, h.bus, h.committed, h.predictor, h.latch, h.tracing, h.stats,
    h.within⟩

theorem sent {r : Result} (hr : s.Names r.tag) : (c.sent r).Renamed s f (c'.sent (r.rename f)) :=
  ⟨h.station, h.buffer, h.bus.latch hr, h.committed, h.predictor, h.latch, h.tracing,
    by rw [Core.sent, Core.sent, h.stats], h.within⟩

theorem execute (op : Operation) (r : Request) :
    (c.execute op r).core.Renamed s f (c'.execute op (r.rename f)).core := by
  cases op with
  | alu op =>
    rw [Core.execute, Core.execute, h.stats]
    exact h.count _
  | branch condition =>
    refine ⟨h.station, h.buffer, h.bus, h.committed, ?_, h.latch, h.tracing, ?_, h.within⟩
    · rw [Core.execute, Core.execute, h.predictor]
      rfl
    · rw [Core.execute, Core.execute, h.predictor, h.stats]
      rfl

theorem issue (hf : s.Faithful f) :
    c.issue.core.Renamed s f c'.issue.core ∧
      c'.issue.answer = renameAnswer f (Option.map f) c.issue.answer ∧
      c'.issue.events.filterMap Event.request? =
        (c.issue.events.filterMap Event.request?).map (Request.rename f) := by
  obtain ⟨ho, ho'⟩ | ⟨e, e', n, ho, ho', hocc, he⟩ := h.station.oldestReady hf
  · rw [issue_none (by rw [Station.issue, ho]; rfl), issue_none (by rw [Station.issue, ho']; rfl),
      h.stats]
    exact ⟨h.count _, rfl, rfl⟩
  · obtain ⟨hn, ht⟩ := he.tag hocc
    cases hd : e.opcode.decode with
    | none =>
      rw [issue_refused ho hd, issue_refused ho' (by rw [he.opcode, hd]), ht, he.opcode]
      exact ⟨h, rfl, rfl⟩
    | some op =>
      -- values are equal in both, so the units compute the same
      rw [issue_sent ho hd, issue_sent ho' (by rw [he.opcode, hd]), he.request hocc, ht]
      have hdone := (h.release he n).execute op e.request
      refine ⟨?_, rfl, ?_⟩
      · have := hdone.sent (r := ⟨e.tag, op.outcome e.operands.values⟩) hn
        simp only [execute_answer]
        exact this
      · simp only [List.filterMap_cons, Event.request?, requests_execute]
        rfl

/-! ## Dispatch -/

theorem supply (hf : s.Faithful f) {t : Tag} (ht : s.Names t) :
    c'.supply? (f t) = c.supply? t := by
  rw [supply?, supply?, h.buffer.lookup hf ht, h.committed.lookup t ht]

theorem resolve (hf : s.Faithful f) (k : Input) {o : Operand}
    (ho : o.waiting = true → s.Names o.tag) :
    (c.resolve k o).1.Renamed s f (c'.resolve k (o.rename f)).1 ∧
      (c'.resolve k (o.rename f)).2 = (c.resolve k o).2 := by
  have hr := Operand.renamed_rename (f := f) ho
  unfold Core.resolve
  rw [hr.waiting]
  split
  · rename_i hw
    obtain ⟨hn, ht⟩ := hr.tag hw
    rw [ht, h.supply hf hn]
    split
    · exact ⟨(hr.resolve hf hn _).1, rfl⟩
    · exact ⟨hr, rfl⟩
  · exact ⟨hr, rfl⟩

theorem install (hf : s.Faithful f) (hb : c.buffer.isFull = false) {i : Instruction}
    (hi : i.Within s) : (c.install i).Renamed s f (c'.install (i.rename f)) := by
  obtain ⟨ht, hops⟩ := hi
  have hk := fun k => h.resolve hf k (hops _ (Operands.get_mem_toList i.operands k))
  have hsupplies : c'.supplies (i.rename f) = c.supplies i := by
    unfold Core.supplies
    congr 2
    refine Operands.ext fun k => ?_
    rw [Operands.get_map, Operands.get_map, Instruction.rename, Operands.get_map]
    exact (hk k).2
  refine ⟨h.station.push ⟨rfl, rfl, fun _ => ⟨ht, rfl⟩, fun k => ?_⟩, h.buffer.push hb i.opcode ht,
    h.bus, h.committed.reclaim hf ht, h.predictor, h.latch, h.tracing, ?_, h.within⟩
  · change ((c.resolved i).operands.get k).Renamed s f ((c'.resolved (i.rename f)).operands.get k)
    rw [get_resolved, get_resolved, Instruction.rename, Operands.get_map]
    exact (hk k).1
  · rw [Core.install, Core.install, h.stats, hsupplies]

theorem dispatch (hf : s.Faithful f) {i : Instruction} (hi : i.Within s) :
    (c.dispatch i).core.Renamed s f (c'.dispatch (i.rename f)).core ∧
      (c'.dispatch (i.rename f)).answer = renameAnswer f id (c.dispatch i).answer := by
  have hs' := h.station.isFull
  have hb' := h.buffer.isFull
  cases hd : i.opcode.decode with
  | none =>
    have hd' : (i.rename f).opcode.decode = none := hd
    rw [dispatch_refused hd, dispatch_refused hd']
    exact ⟨h, rfl⟩
  | some op =>
    have hd : i.opcode.decode.isSome = true := by rw [hd]; rfl
    have hd' : (i.rename f).opcode.decode.isSome = true := hd
    cases hs : c.station.isFull with
    | true =>
      rw [dispatch_stationFull hd hs, dispatch_stationFull hd' (hs'.trans hs), h.stats]
      exact ⟨h.count _, rfl⟩
    | false =>
      cases hb : c.buffer.isFull with
      | true =>
        rw [dispatch_bufferFull hd hs hb, dispatch_bufferFull hd' (hs'.trans hs) (hb'.trans hb),
          h.stats]
        exact ⟨h.count _, rfl⟩
      | false =>
        rw [dispatch_room hd hs hb, dispatch_room hd' (hs'.trans hs) (hb'.trans hb)]
        exact ⟨h.install hf hb hi, rfl⟩

/-! ## A cycle -/

theorem offered (source : List Instruction) :
    c'.offered (source.map (Instruction.rename f)) =
      (c.offered source).map (Instruction.rename f) := by
  rw [Core.offered, Core.offered, h.latch, List.head?_map]
  cases c.latch <;> rfl

theorem offered_within {source : List Instruction} (hsource : ∀ i ∈ source, i.Within s)
    {i : Instruction} (hi : c.offered source = some i) : i.Within s := by
  rcases Option.or_eq_some_iff.1 hi with hl | ⟨-, hh⟩
  · exact h.within i hl
  · exact hsource i (List.mem_of_mem_head? hh)

theorem rest (source : List Instruction) :
    (if c'.latch.isNone then (source.map (Instruction.rename f)).tail
      else source.map (Instruction.rename f)) =
        (if c.latch.isNone then source.tail else source).map (Instruction.rename f) := by
  rw [h.latch, Option.isNone_map, ← List.map_tail]
  split <;> rfl

/-- The dispatch phase answers with a tag, which is renamed, and a stall. -/
theorem late (hf : s.Faithful f) {source : List Instruction}
    (hsource : ∀ i ∈ source, i.Within s) :
    (c.late source).core.Renamed s f (c'.late (source.map (Instruction.rename f))).core ∧
      (c'.late (source.map (Instruction.rename f))).answer =
        renameAnswer f (Prod.map (Option.map f) id) (c.late source).answer := by
  have hissued := ((h.settled hf).issue hf).1
  cases ho : c.offered source with
  | none =>
    have ho' : c'.offered (source.map (Instruction.rename f)) = none := by
      rw [h.offered, ho]
      rfl
    rw [Core.late, Core.late, ho, ho']
    exact ⟨hissued.unlatch, rfl⟩
  | some i =>
    have ho' : c'.offered (source.map (Instruction.rename f)) = some (i.rename f) := by
      rw [h.offered, ho]
      rfl
    have hi := h.offered_within hsource ho
    obtain ⟨hcore, hanswer⟩ := hissued.unlatch.dispatch hf hi
    rw [late_eq ho, late_eq ho']
    dsimp only
    rw [hanswer]
    cases ({ c.settled.issue.core with latch := none }.dispatch i).answer with
    | error e => exact ⟨hcore, rfl⟩
    | ok stall =>
      cases stall with
      | none => exact ⟨hcore, rfl⟩
      | some stall => exact ⟨hcore.relatch fun _ he => Option.some.inj he ▸ hi, rfl⟩

theorem report (hf : s.Faithful f) (issued entered : Option Tag) (stall : Option Stall) :
    c'.report (issued.map f) (entered.map f) stall =
      (c.report issued entered stall).rename f := by
  unfold Core.report CycleReport.rename
  rw [h.stats, h.bus.pending, h.retired hf, Option.map_map, Option.map_map, Option.map_map,
    Option.map_map]
  rfl

theorem step (hf : s.Faithful f) {source : List Instruction}
    (hsource : ∀ i ∈ source, i.Within s) :
    (c.step source).Renamed s f (c'.step (source.map (Instruction.rename f))) := by
  obtain ⟨hissued, hissue, hrequests⟩ := (h.settled hf).issue hf
  obtain ⟨hlate, hanswer⟩ := h.late hf hsource
  have hrest := h.rest source
  suffices hmain : (c.step source).core.Renamed s f
        (c'.step (source.map (Instruction.rename f))).core ∧
      (c'.step (source.map (Instruction.rename f))).source =
        (c.step source).source.map (Instruction.rename f) ∧
      (c'.step (source.map (Instruction.rename f))).outcome =
        renameAnswer f (CycleReport.rename f) (c.step source).outcome by
    -- what retired and what was issued does not depend on how the cycle ends
    refine ⟨hmain.1, hmain.2.1, ?_, hmain.2.2, ?_⟩
    · rw [step_retired, step_retired, h.retired hf]
    · rw [step_issued, step_issued, hrequests]
  cases hi : c.settled.issue.answer with
  | error e =>
    rw [hi] at hissue
    rw [step_eq, step_eq, hi, hissue]
    exact ⟨hissued, rfl, rfl⟩
  | ok tag =>
    rw [hi] at hissue
    cases hl : (c.late source).answer with
    | error e =>
      rw [hl] at hanswer
      rw [step_eq, step_eq, hi, hissue]
      dsimp only [renameAnswer, Except.map, Except.mapError]
      rw [hl, hanswer]
      exact ⟨hlate, hrest, rfl⟩
    | ok p =>
      obtain ⟨entered, stall⟩ := p
      rw [hl] at hanswer
      obtain ⟨hout, hcore, hsrc⟩ := step_ok hi hl (cycles_late c source)
      obtain ⟨hout', hcore', hsrc'⟩ := step_ok hissue hanswer (cycles_late c' _)
      rw [hout, hout', hcore, hcore', hsrc, hsrc']
      exact ⟨hlate, hrest, congrArg Except.ok (h.report hf tag entered stall)⟩

end Renamed

end Core

end OutOfOrder
