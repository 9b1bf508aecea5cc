import Mathlib
import OutOfOrder.Proofs.Places

/-!
# The oldest ready instruction is issued

Age is told by tags, on a circle, and only within a window. It is the order of installation none
the less, as long as the tags are handed out in a row: what is in the station is in the buffer, and
the window covers the buffer (`Sited.older_of_lt`). So of the entries that are ready when the issue
phase begins, the one that is found stands for the instruction that was installed first, in
whatever slot it is and wherever on the circle the tags are (`Sited.origin_le`).
-/

namespace OutOfOrder

namespace Core

/-- The issue phase finds the station as the broadcast has left it. -/
theorem station_settled (c : Core) : c.settled.station = c.deliver.core.station := by
  rw [settled, station_retire]
  cases h : c.bus.pending with
  | none => rw [deliver_idle h, deliver_idle (c := c.begun) h]; rfl
  | some r => rw [deliver_busy h, deliver_busy (c := c.begun) h]; rfl

end Core

namespace Ledger.Sited

variable {config : Config} {l : Ledger}

/-- Of two instructions in the station, the one that was installed first has the older tag. -/
theorem older_of_lt (hs : Sited config l) (valid : config.validate = .ok ())
    (hc : Consecutive l.history.core.tags (l.history.installed.map (·.tag))) {m k : Nat}
    {x y : Station.Entry} (hm : l.history.core.station.slots[m]? = some x)
    (hx : x.occupied = true) (hk : l.history.core.station.slots[k]? = some y)
    (hy : y.occupied = true) (hlt : l.origin m < l.origin k) :
    l.history.core.tags.older x.tag y.tag = true ∧
      l.history.core.tags.older y.tag x.tag = false := by
  have htag : ∀ {n : Nat} {e : Station.Entry}, l.history.core.station.slots[n]? = some e →
      e.occupied = true → (l.history.installed.map (·.tag))[l.origin n]? = some e.tag := by
    intro n e he ho
    obtain ⟨i, hi, hkey, -⟩ := hs.given n e he ho
    rw [List.getElem?_map, hi]
    exact congrArg (fun key => some key.1) hkey
  -- both places are in the buffer, that is among those that have not retired
  obtain ⟨hretired, -⟩ := hs.held_bounds (mem_held hm hx)
  have hdrop := hc.pairwise_older (k := l.history.retired.length)
    (by simpa using hs.length_le valid)
  obtain ⟨hm1, hm2⟩ := List.getElem?_eq_some_iff.1 (htag hm hx)
  obtain ⟨hk1, hk2⟩ := List.getElem?_eq_some_iff.1 (htag hk hy)
  have := List.pairwise_iff_getElem.1 hdrop (l.origin m - l.history.retired.length)
    (l.origin k - l.history.retired.length) (by rw [List.length_drop]; omega)
    (by rw [List.length_drop]; omega) (by omega)
  simp only [List.getElem_drop, show l.history.retired.length +
    (l.origin m - l.history.retired.length) = l.origin m by omega, show l.history.retired.length +
    (l.origin k - l.history.retired.length) = l.origin k by omega, hm2, hk2] at this
  exact this

/-- The entry that is found stands for the instruction that was installed first. -/
theorem origin_le (hs : Sited config l) (valid : config.validate = .ok ())
    (hc : Consecutive l.history.core.tags (l.history.installed.map (·.tag))) {e x : Station.Entry}
    {n m : Nat} (ho : l.history.core.station.oldestReady = some (e, n))
    (hm : l.history.core.station.slots[m]? = some x) (hx : x.ready = true) :
    l.origin n ≤ l.origin m := by
  refine Station.oldestReady_least ho (fun a y ha hy k z hk hz hlt => ?_) hm hx
  exact hs.older_of_lt valid hc ha (Station.Entry.occupied_of_ready hy) hk
    (Station.Entry.occupied_of_ready hz) hlt

end Ledger.Sited

/-- With tags handed out in a row by one allocator, from anywhere and round any number of times, a
cycle issues the instruction that was installed first of those that are ready after its broadcast,
whatever their operands waited for. It issues one whenever one is ready. -/
theorem issues_first_installed {config : Config} (valid : config.validate = .ok ()) :
    ∃ core, Core.ofConfig config = .ok core ∧
      ∀ calls, let l := (Ledger.start core).run calls
        let h := l.history
        let slots := h.core.deliver.core.station.slots
        h = (History.start core).run calls ∧
          (Consecutive core.tags (h.installed.map (·.tag)) →
            (∀ n e, slots[n]? = some e → e.occupied = true →
              ∃ i, h.installed[l.origin n]? = some i ∧ i.key = e.instruction.key) ∧
            ∀ source, let c := h.core.step source
              ((∃ e ∈ slots, e.ready = true) →
                ∃ n e, slots[n]? = some e ∧ e.ready = true ∧ c.issued = [e.request] ∧
                  (l.call (.step source)).sent = l.sent ++ [l.origin n] ∧
                  ∀ m x, slots[m]? = some x → x.ready = true → m ≠ n →
                    l.origin n < l.origin m) ∧
              ((∀ e ∈ slots, e.ready = false) → c.issued = []) ∧
              ∀ report, c.outcome = .ok report →
                report.issued = (c.issued.map (·.tag)).head?) := by
  obtain ⟨core, hcore, hf⟩ := Core.ofConfig_fresh valid
  refine ⟨core, hcore, ?_⟩
  intro calls l h slots
  refine ⟨Ledger.history_run _ calls, fun hc => ?_⟩
  have hw := hc.spaced
  have hl : Ledger.Sited config l := .run valid hf calls hw
  have hs : Ledger.Sited config (l.on h.settle) :=
    (Ledger.Sited.kept valid hf.tags).settle (fun _ => hl) hw
  have hslots : h.settle.core.station.slots = slots :=
    congrArg Station.slots h.core.station_settled
  have hc : Consecutive (l.on h.settle).history.core.tags (h.settle.installed.map (·.tag)) :=
    hs.tags_eq hf.tags ▸ hc
  refine ⟨fun n e he ho => ?_, fun source => ?_⟩
  · obtain ⟨i, hi, hk, -⟩ := hs.given n e (hslots ▸ he) ho
    exact ⟨i, hi, hk⟩
  intro c
  have hsent : (l.call (.step source)).sent = l.sent ++
      (h.core.settled.issue.events.filterMap Event.request?).map fun _ =>
        l.origin h.core.settled.station.readySlot := rfl
  rw [← h.core.step_issued source] at hsent
  have hissued : c.issued = h.core.settled.issue.events.filterMap Event.request? :=
    h.core.step_issued source
  refine ⟨?_, fun hnone => ?_, fun report hr => Core.report_issued hr⟩
  · rintro ⟨e, he, hr⟩
    have hlive : e ∈ h.core.settled.station.live :=
      Station.mem_live.2 ⟨hslots ▸ he, Station.Entry.occupied_of_ready hr⟩
    obtain ⟨hn, -⟩ | ⟨x, hx, hd, -⟩ | ⟨x, n, -, -, -, -, ho, -, -, -, -, -, hreq⟩ :=
      h.core.settled.issue_cases
    · rw [Station.issue_eq_none.1 hn e hlive] at hr
      cases hr
    · have := hs.decodes x hx
      rw [hd] at this
      cases this
    · obtain ⟨hready, hn, hx⟩ := Station.oldestReady_mem ho
      have hget : slots[n]? = some x := hslots ▸ List.getElem?_eq_some_iff.2 ⟨hn, hx⟩
      rw [hreq] at hissued
      refine ⟨n, x, hget, hready, hissued, ?_, fun m y hm hy hne => ?_⟩
      · rw [hsent, hissued, Station.readySlot_eq ho]
        rfl
      · have hm : h.settle.core.station.slots[m]? = some y := hslots ▸ hm
        have hle : l.origin n ≤ l.origin m := hs.origin_le valid hc ho hm hy
        refine Nat.lt_of_le_of_ne hle fun heq => hne ?_
        have hn : h.settle.core.station.slots[n]? = some x := hslots ▸ hget
        exact hs.origin_inj
          (Station.mem_holding.2 ⟨y, hm, Station.Entry.occupied_of_ready hy⟩)
          (Station.mem_holding.2 ⟨x, hn, Station.Entry.occupied_of_ready hready⟩) heq.symm
  · have hi : h.core.settled.station.issue = none := by
      refine Station.issue_eq_none.2 fun e he => hnone e ?_
      exact hslots ▸ (Station.mem_live.1 he).1
    rw [hissued, Core.issue_none hi]
    rfl

/-- Across the end of a lap: the entries under tags 7 and 0 wait for the same result, the older one
in the higher slot. It is issued when the result is broadcast. -/
theorem issues_first_installed_lap :
    ∃ core, Core.ofConfig { stationEntries := 2, bufferEntries := 5, tagBits := 3 } = .ok core ∧
      let i n a := Instruction.of (.alu .add) n a (.ready 2) (.ready 0)
      let l := (Ledger.start core).run [.dispatch (i 6 (.ready 1)),
        .dispatch (i 7 (.waitingOn ⟨6⟩)), .step [i 0 (.waitingOn ⟨6⟩)]]
      Consecutive core.tags (l.history.installed.map (·.tag)) ∧
        l.history.core.deliver.core.station.slots.map (fun e => (e.tag, e.ready)) =
          [(⟨0⟩, true), (⟨7⟩, true)] ∧
        (l.call (.step [])).sent = l.sent ++ [1] ∧
        (l.history.core.step []).issued.map (·.tag) = [⟨7⟩] := by
  obtain ⟨core, hc, h⟩ := issues_first_installed
    (show Config.validate { stationEntries := 2, bufferEntries := 5, tagBits := 3 } = .ok () by
      decide)
  obtain rfl := Except.ok.inj (hc.symm.trans rfl)
  refine ⟨_, rfl, ?_⟩
  intro i l
  have hcons : Consecutive ⟨3, by decide, by decide⟩ (l.history.installed.map (·.tag)) :=
    ⟨6, by decide +kernel⟩
  have hslots : l.history.core.deliver.core.station.slots.map (fun e => (e.tag, e.ready)) =
      [(⟨0⟩, true), (⟨7⟩, true)] := by decide +kernel
  obtain ⟨hready, -⟩ := (h [.dispatch (i 6 (.ready 1)), .dispatch (i 7 (.waitingOn ⟨6⟩)),
    .step [i 0 (.waitingOn ⟨6⟩)]]).2 hcons |>.2 []
  obtain ⟨n, e, hn, -, hissued, hsent, hleast⟩ := hready (by decide +kernel)
  obtain ⟨y, hy⟩ : ∃ y, l.history.core.deliver.core.station.slots[1]? = some y :=
    Option.isSome_iff_exists.1 (by decide +kernel)
  have hat : ∀ {k : Nat} {x : Station.Entry},
      l.history.core.deliver.core.station.slots[k]? = some x →
      [((⟨0⟩, true) : Tag × Bool), (⟨7⟩, true)][k]? = some (x.tag, x.ready) := by
    intro k x hk
    rw [← hslots, List.getElem?_map, hk]
    rfl
  have hplaces : l.origin 0 = 2 ∧ l.origin 1 = 1 := by decide +kernel
  obtain ⟨hlt, he⟩ := List.getElem?_eq_some_iff.1 (hat hn)
  -- slot 0 has the entry of place 2, and slot 1 that of place 1
  obtain rfl | rfl : n = 0 ∨ n = 1 := by simp at hlt; omega
  · have hyr : y.ready = true := (congrArg Prod.snd (Option.some.inj (hat hy))).symm
    have : l.origin 0 < l.origin 1 := hleast 1 y hy hyr (by decide)
    omega
  · refine ⟨hcons, hslots, ?_, ?_⟩
    · rw [← hplaces.2]
      exact hsent
    · rw [hissued]
      exact congrArg (fun p : Tag × Bool => [p.1]) he.symm

end OutOfOrder
