import Mathlib
import OutOfOrder.Proofs.Chronicle
import OutOfOrder.Proofs.Places

/-!
# When things happen

The times of a chronicle are exact. `Timed` is what every run keeps while equal tags are a window
apart. A result is on the bus from the step of its issue to the next one, so it is broadcast one
step after its issue (`Timed.broadcastStep_eq`). The oldest entry retires in the step of its
broadcast or, if that came before, in the step after the one in which its elder retired
(`Timed.retireStep_eq`): an entry that is complete and oldest between two steps has become the
oldest in the last of them (`Timed.prompt`), as otherwise it would have retired then.
-/

namespace OutOfOrder

theorem zip_map_const {α β : Type} (n : Nat) :
    ∀ {l : List α} {m : List β}, l.length = m.length →
      (l.map fun _ => n).zip m = m.map fun y => (n, y)
  | [], [], _ => rfl
  | _ :: _, _ :: _, h => by
    rw [List.map_cons, List.zip_cons_cons, List.map_cons, zip_map_const n (Nat.succ.inj h)]

namespace Chronicle

/-! ## What every run keeps -/

/-- After step `now` (module doc). A result on the bus is to be broadcast in the next step. -/
structure Timed (config : Config) (now : Nat) (k : Chronicle) : Prop where
  sited : k.ledger.Sited config
  entered : k.entered.length = k.ledger.history.installed.length
  entered_le : ∀ n ∈ k.entered, n ≤ now
  issued : k.issued.length = k.ledger.sent.length
  later : ∀ m p n : Nat, k.ledger.sent[m]? = some p → k.issued[m]? = some n →
    ∃ e, k.entered[p]? = some e ∧ e < n
  broadcast_le : ∀ x ∈ k.broadcast, x.1 ≤ now
  flight : k.broadcast ++ k.ledger.history.core.bus.pending.toList.map (fun r => (now + 1, r)) =
    (k.issued.zip k.ledger.results).map fun x => (x.1 + 1, x.2)
  retired : k.retired.length = k.ledger.history.retired.length
  retired_le : ∀ n ∈ k.retired, n ≤ now
  paced : ∀ p r, k.retireStep p = some r → k.due p = some r
  prompt : ∀ e, k.ledger.history.core.buffer.entries.head? = some e → e.waiting = false →
    k.retired.getLast? = some now

namespace Timed

variable {config : Config} {now : Nat} {k : Chronicle}

theorem start {core : Core} (valid : config.validate = .ok ()) (hf : core.Fresh config) :
    Timed config 0 (Chronicle.start core) where
  sited := .start valid hf
  entered := rfl
  entered_le := by simp [Chronicle.start]
  issued := rfl
  later := by simp [Chronicle.start]
  broadcast_le := by simp [Chronicle.start]
  flight := by
    simp [Chronicle.start, Ledger.start, History.start, hf.bus, ResultBus.idle]
  retired := rfl
  retired_le := by simp [Chronicle.start]
  paced := by simp [Chronicle.start, retireStep]
  prompt := by
    simp [Chronicle.start, Ledger.start, History.start, hf.buffer, ReorderBuffer.entries_empty]

section
variable (hk : Timed config now k)
include hk

/-! ### Turns -/

/-- The results that were broadcast, and the one on the bus, are as many as were issued. -/
theorem length_broadcast :
    k.broadcast.length + k.ledger.history.core.bus.pending.toList.length =
      k.ledger.sent.length := by
  have := congrArg List.length hk.flight
  rwa [List.length_append, List.length_map, List.length_map, List.length_zip, hk.issued,
    hk.sited.length_results, Nat.min_self] at this

theorem turn_eq {m p : Nat} (hm : k.ledger.sent[m]? = some p) : k.turn p = m := by
  obtain ⟨hlt, rfl⟩ := List.getElem?_eq_some_iff.1 hm
  exact hk.sited.nodup_sent.idxOf_getElem m hlt

theorem sent_of_issueStep {p n : Nat} (hi : k.issueStep p = some n) : p ∈ k.ledger.sent := by
  have hlt := (List.getElem?_eq_some_iff.1 hi).1
  rw [hk.issued] at hlt
  exact List.idxOf_lt_length_iff.1 hlt

theorem issueStep_of_sent {p : Nat} (hp : p ∈ k.ledger.sent) : ∃ n, k.issueStep p = some n := by
  have hlt : k.turn p < k.issued.length := by
    rw [hk.issued]
    exact List.idxOf_lt_length_iff.2 hp
  exact ⟨_, List.getElem?_eq_getElem hlt⟩

/-- The result whose turn it is, is broadcast in the step after its issue. -/
theorem flight_turn {p n : Nat} (hi : k.issueStep p = some n) :
    ∃ r, (k.broadcast ++
      k.ledger.history.core.bus.pending.toList.map fun r => (now + 1, r))[k.turn p]? =
        some (n + 1, r) := by
  have hlt := (List.getElem?_eq_some_iff.1 hi).1
  rw [hk.issued, ← hk.sited.length_results] at hlt
  have hz : (k.issued.zip k.ledger.results)[k.turn p]? =
      some (n, k.ledger.results[k.turn p]) :=
    List.getElem?_zip_eq_some.2 ⟨hi, List.getElem?_eq_getElem hlt⟩
  exact ⟨_, by rw [hk.flight, List.getElem?_map, hz]; rfl⟩

/-- What was broadcast was issued one step before. -/
theorem broadcastStep_eq_some_iff {p b : Nat} :
    k.broadcastStep p = some b ↔ b ≤ now ∧ ∃ n, k.issueStep p = some n ∧ b = n + 1 := by
  have hlen := hk.length_broadcast
  constructor
  · intro hb
    obtain ⟨x, hx, rfl⟩ := Option.map_eq_some_iff.1 hb
    refine ⟨hk.broadcast_le x (List.mem_of_getElem? hx), ?_⟩
    have hlt := (List.getElem?_eq_some_iff.1 hx).1
    obtain ⟨n, hn⟩ := hk.issueStep_of_sent (List.idxOf_lt_length_iff.1 (show k.turn p < _ by omega))
    obtain ⟨r, hr⟩ := hk.flight_turn hn
    rw [List.getElem?_append_left hlt, hx] at hr
    exact ⟨n, hn, congrArg (·.1) (Option.some.inj hr)⟩
  · rintro ⟨hle, n, hn, rfl⟩
    obtain ⟨r, hr⟩ := hk.flight_turn hn
    by_cases hlt : k.turn p < k.broadcast.length
    · rw [List.getElem?_append_left hlt] at hr
      rw [broadcastStep, hr]
      rfl
    · -- the result on the bus is to be broadcast later than now
      rw [List.getElem?_append_right (by omega), List.getElem?_map] at hr
      obtain ⟨x, -, hx⟩ := Option.map_eq_some_iff.1 hr
      have := congrArg (·.1) hx
      dsimp only at this
      omega

theorem broadcastStep_eq (p : Nat) :
    k.broadcastStep p = ((k.issueStep p).map (· + 1)).filter (· ≤ now) := by
  refine Option.ext fun b => ?_
  rw [hk.broadcastStep_eq_some_iff, Option.filter_eq_some_iff, Option.map_eq_some_iff]
  constructor
  · rintro ⟨hle, n, hn, rfl⟩
    exact ⟨⟨n, hn, rfl⟩, by simpa using hle⟩
  · rintro ⟨⟨n, hn, rfl⟩, hle⟩
    exact ⟨by simpa using hle, n, hn, rfl⟩

/-- The results were broadcast in the order in which they were latched, but for the last, which may
be on the bus. -/
theorem results_eq :
    k.broadcast.map (·.2) ++ k.ledger.history.core.bus.pending.toList = k.ledger.results := by
  have hflight := congrArg (List.map Prod.snd) hk.flight
  rw [List.map_append, List.map_map, List.map_map] at hflight
  have hlast : k.ledger.history.core.bus.pending.toList.map
      (Prod.snd ∘ fun r => (now + 1, r)) = k.ledger.history.core.bus.pending.toList :=
    List.map_id _
  have hall : (k.issued.zip k.ledger.results).map (Prod.snd ∘ fun x => (x.1 + 1, x.2)) =
      k.ledger.results :=
    List.map_snd_zip (by rw [hk.issued, hk.sited.length_results])
  rwa [hlast, hall] at hflight

theorem issueStep_le {p n : Nat} (hi : k.issueStep p = some n) : n ≤ now := by
  obtain ⟨r, hr⟩ := hk.flight_turn hi
  rcases List.mem_append.1 (List.mem_of_getElem? hr) with hm | hm
  · have := hk.broadcast_le _ hm
    dsimp only at this
    omega
  · obtain ⟨x, -, hx⟩ := List.mem_map.1 hm
    have := congrArg (·.1) hx
    dsimp only at this
    omega

/-- The result on the bus is that of the last instruction issued, and was latched now. -/
theorem issueStep_flying {p : Nat} (hp : k.ledger.flying = some p) :
    k.issueStep p = some now := by
  cases hb : k.ledger.history.core.bus.pending with
  | none =>
    rw [Ledger.flying_of_free hb] at hp
    cases hp
  | some r =>
    rw [Ledger.flying_of_pending hb, List.getLast?_eq_getElem?] at hp
    have hlen := hk.length_broadcast
    rw [hb, Option.toList_some, List.length_singleton] at hlen
    obtain ⟨n, hn⟩ := hk.issueStep_of_sent (List.mem_of_getElem? hp)
    obtain ⟨w, hw⟩ := hk.flight_turn hn
    rw [hk.turn_eq hp, show k.ledger.sent.length - 1 = k.broadcast.length by omega, hb,
      Option.toList_some, List.map_singleton, List.getElem?_concat_length] at hw
    have := congrArg (·.1) (Option.some.inj hw)
    dsimp only at this
    rw [hn]
    exact congrArg some (by omega)

/-- What is the oldest now, and was broadcast, has become the oldest just now. -/
theorem prompt_of_broadcast {b : Nat} (hb : k.broadcastStep k.retired.length = some b) :
    k.retired.getLast? = some now := by
  obtain ⟨hle, n, hn, rfl⟩ := hk.broadcastStep_eq_some_iff.1 hb
  have hsent := hk.sent_of_issueStep hn
  have hlt : k.retired.length <
      (k.ledger.history.retired ++ k.ledger.history.core.buffer.entries).length := by
    rw [hk.sited.log_length]
    exact hk.sited.lt_of_mem_sent hsent
  obtain ⟨x, hx⟩ : ∃ x, (k.ledger.history.retired ++
      k.ledger.history.core.buffer.entries)[k.retired.length]? = some x :=
    ⟨_, List.getElem?_eq_getElem hlt⟩
  refine hk.prompt x ?_ (Bool.eq_false_iff.2 fun hxw => ?_)
  · rw [hk.retired, List.getElem?_append_right (Nat.le_refl _), Nat.sub_self,
      ← List.head?_eq_getElem?] at hx
    exact hx
  · rcases (hk.sited.sited _ _ hx).1 hxw with hm | hm
    · exact hk.sited.not_sent_of_held hm hsent
    · have := Option.some.inj (hn.symm.trans (hk.issueStep_flying hm))
      omega

/-- An entry retires in the step in which it is due, once that step has been reached. -/
theorem retireStep_eq (p : Nat) : k.retireStep p = (k.due p).filter (· ≤ now) := by
  cases hr : k.retireStep p with
  | some r =>
    have hle := hk.retired_le r (List.mem_of_getElem? hr)
    rw [hk.paced p r hr, Option.filter_some, if_pos (by simpa using hle)]
  | none =>
    refine (Option.filter_eq_none_iff.2 fun r hd => ?_).symm
    have hlen : k.retired.length ≤ p := List.getElem?_eq_none_iff.1 hr
    cases p with
    | zero =>
      have hzero : k.retired.length = 0 := by omega
      have hb : k.broadcastStep k.retired.length = some r := by
        rw [hzero]
        exact hd
      have hlast := hk.prompt_of_broadcast hb
      rw [List.length_eq_zero_iff.1 hzero] at hlast
      cases hlast
    | succ p =>
      obtain ⟨b, q, hb, hq, rfl⟩ := Option.map₂_eq_some_iff.1 hd
      have hlt := (List.getElem?_eq_some_iff.1 hq).1
      have hone : k.retired.length = p + 1 := by omega
      have hlast := hk.prompt_of_broadcast (hone.symm ▸ hb)
      rw [List.getLast?_eq_getElem?, hone, Nat.add_sub_cancel] at hlast
      obtain rfl := Option.some.inj (hq.symm.trans hlast)
      simp

theorem retireStep_zero : k.retireStep 0 = k.broadcastStep 0 := by
  rw [hk.retireStep_eq, due]
  cases hb : k.broadcastStep 0 with
  | none => rfl
  | some b =>
    rw [Option.filter_some, if_pos]
    simpa using (hk.broadcastStep_eq_some_iff.1 hb).1

/-! ### Phases -/

theorem frame (latch : Option Instruction) (predictor : Counter) (stats : Stats) :
    Timed config now (k.on (k.ledger.history.frame latch predictor stats)) where
  sited := hk.sited.frame latch predictor stats
  entered := hk.entered
  entered_le := hk.entered_le
  issued := hk.issued
  later := hk.later
  broadcast_le := hk.broadcast_le
  flight := hk.flight
  retired := hk.retired
  retired_le := hk.retired_le
  paced := hk.paced
  prompt := hk.prompt

theorem install {i : Instruction} (hf : k.ledger.history.core.buffer.isFull = false)
    (hs : (k.ledger.install i).Sited config) : Timed config now (k.install i now) where
  sited := hs
  entered := by
    change (k.entered ++ [now]).length = (k.ledger.history.installed ++ [i]).length
    rw [List.length_append, List.length_append, hk.entered]
    rfl
  entered_le := by
    intro n hn
    rcases List.mem_append.1 hn with hn | hn
    · exact hk.entered_le n hn
    · exact (List.mem_singleton.1 hn).le
  issued := hk.issued
  later := by
    intro m p n hm hn
    obtain ⟨e, he, hlt⟩ := hk.later m p n hm hn
    exact ⟨e, List.getElem?_append_left (List.getElem?_eq_some_iff.1 he).1 ▸ he, hlt⟩
  broadcast_le := hk.broadcast_le
  flight := hk.flight
  retired := hk.retired
  retired_le := hk.retired_le
  paced := hk.paced
  prompt := by
    intro e he hw
    have hentries : (k.ledger.install i).history.core.buffer.entries =
        k.ledger.history.core.buffer.entries ++ [.pending i.opcode i.tag] :=
      ReorderBuffer.entries_push _ _ _ hf
    change (k.ledger.install i).history.core.buffer.entries.head? = some e at he
    rw [hentries, List.head?_append] at he
    cases hh : k.ledger.history.core.buffer.entries.head? with
    | none =>
      -- the new entry is the oldest, and it waits
      rw [hh] at he
      obtain rfl := Option.some.inj he
      cases hw
    | some x =>
      rw [hh] at he
      obtain rfl := Option.some.inj he
      exact hk.prompt x hh hw

/-! ### The phases of a cycle before dispatch -/

/-- What was broadcast stays known. -/
theorem broadcastStep_early {p b : Nat} (hb : k.broadcastStep p = some b) (n : Nat) :
    (k.early n).broadcastStep p = some b := by
  have hlen := hk.length_broadcast
  obtain ⟨x, hx, rfl⟩ := Option.map_eq_some_iff.1 hb
  have hlt := (List.getElem?_eq_some_iff.1 hx).1
  have hp : p ∈ k.ledger.sent := List.idxOf_lt_length_iff.1 (show k.turn p < _ by omega)
  have hturn : (k.early n).turn p = k.turn p := List.idxOf_append_of_mem hp
  refine Option.map_eq_some_iff.2 ⟨x, ?_, rfl⟩
  rw [hturn]
  exact (List.getElem?_append_left hlt).trans hx

theorem due_early {p r : Nat} (hd : k.due p = some r) (n : Nat) :
    (k.early n).due p = some r := by
  cases p with
  | zero => exact hk.broadcastStep_early hd n
  | succ p =>
    obtain ⟨b, q, hb, hq, rfl⟩ := Option.map₂_eq_some_iff.1 hd
    have hq' : (k.early n).retireStep p = some q :=
      (List.getElem?_append_left (List.getElem?_eq_some_iff.1 hq).1).trans hq
    exact Option.map₂_eq_some_iff.2 ⟨b, q, hk.broadcastStep_early hb n, hq', rfl⟩

/-- The broadcast phase leaves no result on the bus. -/
theorem broadcastStep_early_of_sent {p i : Nat} (hi : k.issueStep p = some i) :
    (k.early (now + 1)).broadcastStep p = some (i + 1) := by
  obtain ⟨r, hr⟩ := hk.flight_turn hi
  have hturn : (k.early (now + 1)).turn p = k.turn p :=
    List.idxOf_append_of_mem (hk.sent_of_issueStep hi)
  refine Option.map_eq_some_iff.2 ⟨(i + 1, r), ?_, rfl⟩
  rw [hturn]
  exact hr

/-- What retires in the next step was broadcast by then, and if it was broadcast before, then its
elder has retired just now. -/
theorem early_oldest (hd : (k.ledger.on k.ledger.history.begun.deliver).Sited config)
    {e : ReorderBuffer.Entry}
    (he : k.ledger.history.begun.deliver.core.buffer.entries.head? = some e)
    (hw : e.waiting = false) :
    ∃ b ≤ now + 1, (k.early (now + 1)).broadcastStep k.retired.length = some b ∧
      (b ≤ now → k.retired.getLast? = some now) := by
  have hlog : (k.ledger.history.retired ++
      k.ledger.history.begun.deliver.core.buffer.entries)[k.retired.length]? = some e := by
    rw [hk.retired, List.getElem?_append_right (Nat.le_refl _), Nat.sub_self,
      ← List.head?_eq_getElem?, he]
  have hheld : k.retired.length ∉ (k.ledger.on k.ledger.history.begun.deliver).held := by
    intro hp
    have := (hd.sited _ e hlog).2 (.inl hp)
    rw [hw] at this
    cases this
  have hlt : k.retired.length < k.ledger.history.installed.length :=
    lt_of_lt_of_eq (List.getElem?_eq_some_iff.1 hlog).1 hd.log_length
  have hsent : k.retired.length ∈ k.ledger.sent := by
    rcases List.mem_append.1 (hd.held_sent.symm.subset (List.mem_range.2 hlt)) with hm | hm
    · exact absurd hm hheld
    · exact hm
  obtain ⟨i, hi⟩ := hk.issueStep_of_sent hsent
  have hle := hk.issueStep_le hi
  exact ⟨i + 1, by omega, hk.broadcastStep_early_of_sent hi, fun hb =>
    hk.prompt_of_broadcast (hk.broadcastStep_eq_some_iff.2 ⟨hb, i, hi, rfl⟩)⟩

/-- What retires in the next step is due in it. -/
theorem early_due (hd : (k.ledger.on k.ledger.history.begun.deliver).Sited config)
    {e : ReorderBuffer.Entry}
    (he : k.ledger.history.begun.deliver.core.buffer.entries.head? = some e)
    (hw : e.waiting = false) :
    (k.early (now + 1)).due k.retired.length = some (now + 1) := by
  obtain ⟨b, hb, hstep, hlast⟩ := hk.early_oldest hd he hw
  cases hp : k.retired.length with
  | zero =>
    rw [hp] at hstep
    have : ¬ b ≤ now := by
      intro hle
      have := hlast hle
      rw [List.length_eq_zero_iff.1 hp] at this
      cases this
    rw [due, hstep]
    exact congrArg some (by omega)
  | succ p =>
    rw [hp] at hstep
    have hlt : p < k.retired.length := by omega
    have hq := List.getElem?_eq_getElem hlt
    have hq' : (k.early (now + 1)).retireStep p = some k.retired[p] :=
      (List.getElem?_append_left hlt).trans hq
    have hle := hk.retired_le _ (List.getElem_mem hlt)
    refine Option.map₂_eq_some_iff.2 ⟨b, _, hstep, hq', ?_⟩
    by_cases hbn : b ≤ now
    · have hl := hlast hbn
      rw [List.getLast?_eq_getElem?, show k.retired.length - 1 = p by omega, hq] at hl
      have := Option.some.inj hl
      omega
    · omega

theorem early (hd : (k.ledger.on k.ledger.history.begun.deliver).Sited config)
    (he : k.ledger.early.Sited config) : Timed config (now + 1) (k.early (now + 1)) where
  sited := he
  entered := hk.entered
  entered_le := fun n hn => Nat.le_succ_of_le (hk.entered_le n hn)
  issued := by
    simp only [Chronicle.early, Ledger.early, Ledger.issue, List.length_append, List.length_map,
      hk.issued]
    rfl
  later := by
    intro m p n hm hn
    by_cases hlt : m < k.issued.length
    · have hm' := (List.getElem?_append_left (hk.issued ▸ hlt)).symm.trans hm
      have hn' := (List.getElem?_append_left hlt).symm.trans hn
      exact hk.later m p n hm' hn'
    · -- it is issued in this step, and was installed before
      have hp : p < k.ledger.history.installed.length := he.lt_of_mem_sent (List.mem_of_getElem? hm)
      have hp' : p < k.entered.length := hk.entered ▸ hp
      refine ⟨k.entered[p], List.getElem?_eq_getElem hp', ?_⟩
      have hn' := (List.getElem?_append_right (by omega)).symm.trans hn
      obtain ⟨x, -, rfl⟩ := List.mem_map.1 (List.mem_of_getElem? hn')
      exact Nat.lt_succ_of_le (hk.entered_le _ (List.getElem_mem hp'))
  broadcast_le := by
    intro x hx
    rcases List.mem_append.1 hx with hx | hx
    · exact Nat.le_succ_of_le (hk.broadcast_le x hx)
    · obtain ⟨r, -, rfl⟩ := List.mem_map.1 hx
      exact Nat.le_refl _
  flight := by
    have hlen := Core.requests_issue (c := k.ledger.history.core.settled)
      k.ledger.history.pending_settle
    have hzip : (k.early (now + 1)).issued.zip (k.early (now + 1)).ledger.results =
        k.issued.zip k.ledger.results ++
          ((k.ledger.history.core.settled.issue.events.filterMap Event.request?).map
            fun _ => now + 1).zip k.ledger.history.core.settled.issue.core.bus.pending.toList :=
      List.zip_append (hk.issued.trans hk.sited.length_results.symm)
    rw [hzip, zip_map_const _ hlen, List.map_append, ← hk.flight, List.map_map]
    rfl
  retired := by
    simp only [Chronicle.early, List.length_append, List.length_map, hk.retired]
    exact (List.length_append ..).symm
  retired_le := by
    intro n hn
    rcases List.mem_append.1 hn with hn | hn
    · exact Nat.le_succ_of_le (hk.retired_le n hn)
    · obtain ⟨e, -, rfl⟩ := List.mem_map.1 hn
      exact Nat.le_refl _
  paced := by
    intro p r hr
    by_cases hlt : p < k.retired.length
    · exact hk.due_early (hk.paced p r ((List.getElem?_append_left hlt).symm.trans hr)) _
    · have hr := (List.getElem?_append_right (by omega)).symm.trans hr
      rw [List.getElem?_map, Core.retire_answer] at hr
      cases hb : k.ledger.history.core.begun.deliver.core.buffer.retire with
      | none =>
        rw [hb] at hr
        cases hr
      | some x =>
        obtain ⟨e, buffer⟩ := x
        obtain ⟨hentries, hw, -⟩ := ReorderBuffer.retire_eq_some hb
        rw [hb] at hr
        have hp : p - k.retired.length = 0 := by
          by_contra hne
          rw [List.getElem?_eq_none (by simp; omega)] at hr
          cases hr
        rw [hp] at hr
        obtain rfl := Option.some.inj hr
        obtain rfl : p = k.retired.length := by omega
        exact hk.early_due hd (congrArg List.head? hentries) hw
  prompt := by
    intro e hh hw
    have hbuffer : k.ledger.early.history.core.buffer =
        k.ledger.history.core.begun.deliver.core.retire.core.buffer := Core.buffer_issue _
    change k.ledger.early.history.core.buffer.entries.head? = some e at hh
    rw [hbuffer] at hh
    cases hb : k.ledger.history.core.begun.deliver.core.buffer.retire with
    | none =>
      -- an oldest entry that is complete would have retired
      obtain ⟨-, stats, hcore, -⟩ := Core.retire_none hb
      rw [hcore] at hh
      rw [ReorderBuffer.retire_eq_none.1 hb e hh] at hw
      cases hw
    | some x =>
      have hretired : (k.early (now + 1)).retired = k.retired ++ [now + 1] := by
        rw [Chronicle.early, Core.retire_answer, hb]
        rfl
      rw [hretired, List.getLast?_concat]

end

/-! ### Every run -/

theorem call (valid : config.validate = .ok ()) {tags : TagSpace}
    (ht : config.tagSpace = .ok tags) (hk : Timed config k.cycles k) (c : Call)
    (hw : Spaced tags.window ((k.call c).ledger.history.installed.map (·.tag))) :
    Timed config (k.call c).cycles (k.call c) := by
  have hledger := k.ledger_call c
  have hkept := Ledger.Sited.kept valid ht
  have hsited := hkept.call c (fun _ => hk.sited) (hledger ▸ hw)
  have hw0 : Spaced tags.window (k.ledger.history.installed.map (·.tag)) := by
    obtain ⟨more, hmore⟩ := k.ledger.history.installed_prefix_call c
    rw [hledger, k.ledger.history_call, ← hmore, List.map_append] at hw
    exact hw.of_append
  cases c with
  | dispatch i =>
    rw [k.cycles_call_dispatch]
    obtain ⟨stats, he⟩ | ⟨hf, he⟩ := k.call_dispatch_cases i
    · rw [he]
      exact hk.frame _ _ _
    · rw [← hledger, he] at hsited
      rw [he]
      exact hk.install hf hsited
  | step source =>
    have hearly := hk.early (hkept.deliver (fun _ => hk.sited) hw0)
      (hkept.early (fun _ => hk.sited) hw0)
    rw [k.cycles_call_step]
    obtain ⟨latch, stats, he⟩ | ⟨i, latch, hf, he⟩ := k.call_step_cases source
    · rw [he]
      exact hearly.frame _ _ _
    · rw [← hledger, he] at hsited
      rw [he]
      exact (hearly.frame _ _ _).install hf hsited

theorem run {core : Core} (valid : config.validate = .ok ()) (hf : core.Fresh config)
    (calls : List Call) (hw : Spaced core.tags.window
      (((Chronicle.start core).run calls).ledger.history.installed.map (·.tag))) :
    Timed config ((Chronicle.start core).run calls).cycles ((Chronicle.start core).run calls) := by
  induction calls using List.reverseRecOn with
  | nil =>
    have hzero : ((Chronicle.start core).run []).cycles = 0 := congrArg Stats.cycles hf.stats
    rw [hzero]
    exact start valid hf
  | append_singleton calls c ih =>
    rw [run_append] at hw ⊢
    obtain ⟨more, hmore⟩ :=
      ((Chronicle.start core).run calls).ledger.history.installed_prefix_call c
    refine call valid hf.tags (ih ?_) c hw
    change Spaced _ ((((Chronicle.start core).run calls).call c).ledger.history.installed.map _)
      at hw
    rw [ledger_call, Ledger.history_call, ← hmore, List.map_append] at hw
    exact hw.of_append

end Timed

end Chronicle

/-- Each request and its result carry one tag. -/
theorem Ledger.kept_tags : Kept fun l => l.history.issued.map (·.tag) = l.results.map (·.tag) where
  frame := fun _ _ _ h => h
  broadcast := fun _ h => h
  leave := fun _ h => h
  send := by
    intro l e n station o _ _ _ h
    change (l.history.issued ++ [e.request]).map (·.tag) =
      (l.results ++ [(⟨e.tag, o⟩ : Result)]).map (·.tag)
    rw [List.map_append, List.map_append, h]
    rfl
  install := fun _ _ _ h => h

/-- As long as equal tags are installed at least a window apart, the steps in which an instruction
is issued, broadcast and retired are told exactly. It is issued later than it was installed; its
result is broadcast in the next step; and it retires with its broadcast or in the step after its
elder, whichever comes later. Each of these is read up to the step that the run has reached. Which
instruction was issued is known by its place, the results are broadcast in the order of issue, and
what retires is what was installed, in order. No step issues, broadcasts or retires more than one
instruction. -/
theorem steps_timed {config : Config} (valid : config.validate = .ok ()) :
    ∃ core, Core.ofConfig config = .ok core ∧
      ∀ calls,
        let k := (Chronicle.start core).run calls
        let h := k.ledger.history
        let now := h.core.stats.cycles
        h = (History.start core).run calls ∧
        (Spaced core.tags.window (h.installed.map (·.tag)) →
          (∀ p n, k.issueStep p = some n → ∃ e, k.entered[p]? = some e ∧ e < n) ∧
          (∀ p, k.broadcastStep p = ((k.issueStep p).map (· + 1)).filter (· ≤ now)) ∧
          k.retireStep 0 = k.broadcastStep 0 ∧
          (∀ p, k.retireStep (p + 1) =
            (Option.map₂ (fun b r => max b (r + 1)) (k.broadcastStep (p + 1))
              (k.retireStep p)).filter (· ≤ now)) ∧
          k.ledger.sent.Nodup ∧
          k.ledger.sent.map (fun p => (h.installed.map (·.tag))[p]?) =
            h.issued.map (fun r => some r.tag) ∧
          h.issued.map (·.tag) = k.ledger.results.map (·.tag) ∧
          k.broadcast.map (·.2) ++ h.core.bus.pending.toList = k.ledger.results ∧
          h.retired.map (·.tag) <+: h.installed.map (·.tag)) ∧
        ∀ source, let c := h.core.step source
          c.issued.length ≤ 1 ∧ c.broadcasts.length ≤ 1 ∧ c.retirements = c.retired.toList := by
  obtain ⟨core, hc, hf⟩ := Core.ofConfig_fresh valid
  refine ⟨core, hc, ?_⟩
  intro calls k h now
  have hrun : h = (History.start core).run calls :=
    (congrArg Ledger.history (Chronicle.ledger_run _ calls)).trans (Ledger.history_run _ calls)
  refine ⟨hrun, fun hw => ?_, fun source => ?_⟩
  · have hk : k.Timed config now := .run valid hf calls hw
    have htags : h.issued.map (·.tag) = k.ledger.results.map (·.tag) := by
      have hledger : k.ledger = (Ledger.start core).run calls := Chronicle.ledger_run _ calls
      rw [show h = k.ledger.history from rfl, hledger]
      exact Ledger.kept_tags.run calls rfl
    have hsent : k.ledger.sent.map (fun p => (h.installed.map (·.tag))[p]?) =
        h.issued.map (fun r => some r.tag) := by
      have := congrArg (List.map some) htags
      rw [List.map_map, List.map_map] at this
      exact hk.sited.latched.symm.trans this.symm
    have hretired : h.retired.map (·.tag) <+: h.installed.map (·.tag) := by
      rw [← hk.sited.log_tags, List.map_append]
      exact List.prefix_append ..
    exact ⟨fun p n hn => hk.later _ p n (List.getElem?_idxOf (hk.sent_of_issueStep hn)) hn,
      hk.broadcastStep_eq, hk.retireStep_zero, fun p => hk.retireStep_eq (p + 1),
      hk.sited.nodup_sent, hsent, htags, hk.results_eq, hretired⟩
  · refine ⟨h.core.issued_length_le source, ?_, h.core.step_retirements source⟩
    rw [h.core.step_broadcasts source]
    cases h.core.bus.pending <;> simp

/-- The instruction of tag 0 waits for that of tag 1, which is issued first and has to wait with its
retirement. The instruction of tag 2 is issued last, and is not delayed any more. -/
theorem steps_timed_overtaken :
    ∃ core, Core.ofConfig { bufferEntries := 5, tagBits := 3 } = .ok core ∧
      let i n a := Instruction.of (.alu .add) n a (.ready 2) (.ready 0)
      let k := (Chronicle.start core).run [.dispatch (i 0 (.waitingOn ⟨1⟩)), .step [i 1 (.ready 1)],
        .step [], .step [], .step [i 2 (.ready 1)], .step [], .step [], .step []]
      k.entered = [0, 1, 4] ∧
        [0, 1, 2].map k.issueStep = [some 3, some 2, some 5] ∧
        [0, 1, 2].map k.broadcastStep = [some 4, some 3, some 6] ∧
        [0, 1, 2].map k.retireStep = [some 4, some 5, some 6] := by
  obtain ⟨core, hc, h⟩ := steps_timed
    (show Config.validate { bufferEntries := 5, tagBits := 3 } = .ok () by decide)
  obtain rfl := Except.ok.inj (hc.symm.trans rfl)
  refine ⟨_, rfl, ?_⟩
  intro i k
  have hw : Spaced (TagSpace.window ⟨3, by decide, by decide⟩)
      (k.ledger.history.installed.map (·.tag)) := by decide +kernel
  have hissue : k.issueStep 0 = some 3 ∧ k.issueStep 1 = some 2 ∧ k.issueStep 2 = some 5 := by
    decide +kernel
  have hnow : k.ledger.history.core.stats.cycles = 7 := by decide +kernel
  obtain ⟨-, htimed, -⟩ := h [.dispatch (i 0 (.waitingOn ⟨1⟩)), .step [i 1 (.ready 1)],
    .step [], .step [], .step [i 2 (.ready 1)], .step [], .step [], .step []]
  obtain ⟨-, hbroadcast, hzero, hsucc, -⟩ := htimed hw
  obtain ⟨h0, h1, h2⟩ := hissue
  have hb0 : k.broadcastStep 0 = some 4 := by rw [hbroadcast, h0, hnow]; rfl
  have hb1 : k.broadcastStep 1 = some 3 := by rw [hbroadcast, h1, hnow]; rfl
  have hb2 : k.broadcastStep 2 = some 6 := by rw [hbroadcast, h2, hnow]; rfl
  have hr0 : k.retireStep 0 = some 4 := hzero.trans hb0
  have hr1 : k.retireStep 1 = some 5 := by rw [hsucc, hb1, hr0, hnow]; rfl
  have hr2 : k.retireStep 2 = some 6 := by rw [hsucc, hb2, hr1, hnow]; rfl
  refine ⟨by decide +kernel, ?_, ?_, ?_⟩
  · simp only [List.map_cons, List.map_nil, h0, h1, h2]
  · simp only [List.map_cons, List.map_nil, hb0, hb1, hb2]
  · simp only [List.map_cons, List.map_nil, hr0, hr1, hr2]

end OutOfOrder
