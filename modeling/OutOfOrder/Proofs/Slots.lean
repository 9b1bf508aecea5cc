import Mathlib
import OutOfOrder.Program
import OutOfOrder.Proofs.Station

/-!
# The slots of a station, request by request

`Serves` lists what may become of the slots when a station is asked to take an instruction in, to
issue one or to wake those that wait, and with it what becomes of the entries that it holds,
whatever slots they are in. Every station serves every request in this way (`serves_ask`), also one
whose count beside the slots is wrong. That the count is right is kept by each request
(`counted_ask`) and so holds from the empty station on; then it tells whether there is room.
-/

namespace OutOfOrder.Station

/-! ## Requests -/

/-- What a station can be asked for. -/
inductive Query
  | push (i : Instruction)
  | issue
  | wake (r : Result)

/-- An answer: whether there was room, what was issued, or how many operands took the result. -/
inductive Reply
  | pushed (success : Bool)
  | issued (request : Option Request)
  | woken (taken : ℕ)
deriving DecidableEq

def ask (s : Station) : Query → Station × Reply
  | .push i => ((s.push i).1, .pushed (s.push i).2)
  | .issue =>
    match s.issue with
    | some (request, rest) => (rest, .issued (some request))
    | none => (s, .issued none)
  | .wake r => ((s.wake r).1, .woken (s.wake r).2)

/-- The station after one request after the other. -/
def askAll (s : Station) (queries : List Query) : Station :=
  queries.foldl (fun s q => (s.ask q).1) s

/-- What every request keeps holds after any sequence of requests. -/
theorem askAll_keeps {P : Station → Prop} (step : ∀ {s}, P s → ∀ q, P (s.ask q).1) {s : Station}
    (h : P s) (queries : List Query) : P (s.askAll queries) := by
  induction queries generalizing s with
  | nil => exact h
  | cons q queries ih => exact ih (step h q)

/-! ## What a request does -/

/-- What a station holds, whatever slots it is in. -/
def held (s : Station) : Multiset Entry := s.live

/-- `e'` is `e` after a result: operands that waited for it have its flags, or its value if they are
not the third, unless the slot is free. -/
structure Entry.Resolved (r : Result) (e e' : Entry) : Prop where
  free : e.occupied = false → e' = e
  occupied : e'.occupied = e.occupied
  opcode : e'.opcode = e.opcode
  tag : e'.tag = e.tag
  operands : ∀ k, e'.operands.get k = e.operands.get k ∨
    ((e.operands.get k).waiting = true ∧ (e.operands.get k).tag = r.tag ∧
      e'.operands.get k =
        ⟨false, r.tag, if k = .f then r.outcome.flags else r.outcome.value⟩)

theorem Entry.resolved_wake (r : Result) (e : Entry) : e.Resolved r (e.wake r).1 where
  free ho := by rw [wake_free ho]
  occupied := e.occupied_wake r
  opcode := e.opcode_wake r
  tag := e.tag_wake r
  operands k := by
    cases ho : e.occupied with
    | false => exact .inl (by rw [wake_free ho])
    | true =>
      rw [get_wake ho]
      obtain ⟨hw, ht, he⟩ | ⟨-, he⟩ := (e.operands.get k).resolve_cases r.tag (r.outcome.read k)
      · exact .inr ⟨hw, ht, by rw [he, ht, Outcome.read_eq]⟩
      · exact .inl he

/-- What may become of the slots and of what they hold, by request and reply. -/
inductive Serves (s : Station) : Query → Reply → Station → Prop
  | filled {i : Instruction} {n : ℕ} {now : Station} (lowest : s.LowestFree n)
      (slots : now.slots = s.slots.set n ⟨true, i.opcode, i.tag, i.operands⟩)
      (held : now.held = ⟨true, i.opcode, i.tag, i.operands⟩ ::ₘ s.held) :
      Serves s (.push i) (.pushed true) now
  | refused {i : Instruction} (full : ∀ e ∈ s.slots, e.occupied = true) :
      Serves s (.push i) (.pushed false) s
  | issued {n : ℕ} {e : Entry} {now : Station} (slot : s.slots[n]? = some e)
      (ready : e.ready = true)
      (slots : now.slots = s.slots.set n { e with occupied := false })
      (held : s.held = e ::ₘ now.held) :
      Serves s .issue (.issued (some ⟨e.tag, e.opcode,
        ⟨e.operands.a.value, e.operands.b.value, e.operands.f.value⟩⟩)) now
  | idle (unready : ∀ e ∈ s.held, e.ready = false) : Serves s .issue (.issued none) s
  | woken {r : Result} {taken : ℕ} {now : Station} (wake : Entry → Entry)
      (slots : now.slots = s.slots.map wake) (held : now.held = s.held.map wake)
      (resolved : ∀ e : Entry, e.Resolved r (wake e)) : Serves s (.wake r) (.woken taken) now

theorem serves_ask (s : Station) (q : Query) : s.Serves q (s.ask q).2 (s.ask q).1 := by
  cases q with
  | push i =>
    obtain ⟨hfull, h⟩ | ⟨n, hn, h⟩ := s.push_cases i
    · simp only [ask, h]
      exact .refused hfull
    · obtain ⟨hlt, hfree⟩ := hn.free
      simp only [ask, h]
      exact .filled hn rfl (Multiset.coe_eq_coe.2 (filter_set_perm hlt hfree rfl))
  | issue =>
    cases h : s.issue with
    | none =>
      simp only [ask, h]
      exact .idle (issue_eq_none.1 h)
    | some p =>
      obtain ⟨e, n, ho, hrequest, hrest⟩ := issue_eq_some_iff.1 h
      obtain ⟨hr, hn, he⟩ := oldestReady_mem ho
      simp only [ask, h, hrequest]
      rw [show p = (e.request, p.2) from Prod.ext hrequest rfl] at h
      exact .issued (List.getElem?_eq_some_iff.2 ⟨hn, he⟩) hr (by rw [hrest])
        (Multiset.coe_eq_coe.2 (live_issue ho h))
  | wake r =>
    exact .woken (fun e => (e.wake r).1) (s.slots_wake r) (congrArg Multiset.ofList (s.live_wake r))
      (Entry.resolved_wake r)

namespace Serves

variable {s now : Station} {q : Query} {reply : Reply} (h : s.Serves q reply now)
include h

theorem capacity : now.capacity = s.capacity := by
  cases h with
  | filled _ slots | issued _ _ slots => rw [Station.capacity, slots, List.length_set]; rfl
  | refused | idle => rfl
  | woken _ slots => rw [Station.capacity, slots, List.length_map]; rfl

/-- A free slot is left alone, unless it is the lowest one and an instruction comes. -/
theorem free_slot {n : ℕ} {e : Entry} (hn : s.slots[n]? = some e) (hfree : e.occupied = false) :
    now.slots[n]? = some e ∨
      s.LowestFree n ∧ ∃ i, q = .push i ∧ reply = .pushed true ∧
        now.slots[n]? = some ⟨true, i.opcode, i.tag, i.operands⟩ := by
  cases h with
  | @filled i m _ lowest slots =>
    rw [slots]
    by_cases hmn : m = n
    · subst hmn
      exact .inr ⟨lowest, i, rfl, rfl, List.getElem?_set_self lowest.free.1⟩
    · rw [List.getElem?_set_ne hmn]
      exact .inl hn
  | @issued m x _ slot ready slots =>
    have hmn : m ≠ n := by
      rintro rfl
      obtain rfl : x = e := Option.some.inj (slot.symm.trans hn)
      rw [Entry.occupied_of_ready ready] at hfree
      cases hfree
    rw [slots, List.getElem?_set_ne hmn]
    exact .inl hn
  | refused | idle => exact .inl hn
  | woken wake slots _ resolved =>
    rw [slots, List.getElem?_map, hn, Option.map_some, (resolved e).free hfree]
    exact .inl rfl

/-- An answer that nothing was done is true. -/
theorem eq_self (hr : reply = .pushed false ∨ reply = .issued none) : now = s := by
  cases h with
  | refused | idle => rfl
  | filled | issued | woken => simp at hr

end Serves

/-! ## The count beside the slots -/

theorem isFull_iff_push {s : Station} (hc : s.Counted) (i : Instruction) :
    s.isFull = true ↔ (s.push i).2 = false := by
  rw [isFull_iff_forall hc]
  obtain ⟨hall, h⟩ | ⟨n, hn, h⟩ := s.push_cases i
  · simp only [h, iff_true]
    exact hall
  · obtain ⟨hlt, hfree⟩ := hn.free
    simp only [h, Bool.true_eq_false, iff_false, not_forall]
    exact ⟨_, List.getElem_mem hlt, by rw [hfree]; nofun⟩

theorem counted_ask {s : Station} (hc : s.Counted) (q : Query) : (s.ask q).1.Counted := by
  cases q with
  | push i =>
    cases hf : s.isFull with
    | false => exact counted_push hc hf i
    | true =>
      have hpush := (isFull_iff_push hc i).1 hf
      rwa [(s.serves_ask (.push i)).eq_self (.inl (congrArg Reply.pushed hpush))]
  | issue =>
    cases h : s.issue with
    | none => simpa only [ask, h] using hc
    | some p =>
      obtain ⟨e, n, -, -, -, -, -, -, -, hcount⟩ := issue_eq_some h
      simpa only [ask, h] using hcount hc
  | wake r => exact counted_wake hc r

theorem tags_ask (s : Station) (q : Query) : (s.ask q).1.tags = s.tags := by
  cases q with
  | push i => exact s.tags_push i
  | issue =>
    cases h : s.issue with
    | none => simp only [ask, h]
    | some p =>
      obtain ⟨e, n, -, -, -, -, -, -, htags, -⟩ := issue_eq_some h
      simpa only [ask, h] using htags
  | wake r => rfl

/-- After any sequence of requests to an empty station, of whatever capacity, it has the slots that
it had at first, and its count is that of the occupied ones. So it tells rightly that it is empty,
or full, which is when it turns instructions down. What it holds then changes as `Serves` has it:
an instruction comes in as it is, or everything stays as it was; the entry that is issued leaves,
or everything stays as it was; operands that wait for a result take it. A free slot is altered by
nothing but the instruction that fills it. -/
theorem slots_answer_requests (tags : TagSpace) (capacity : ℕ) (queries : List Query) :
    let s := (empty tags capacity).askAll queries
    s.tags = tags ∧ s.slots.length = capacity ∧ s.occupied = s.slots.countP (·.occupied) ∧
      (s.isEmpty = true ↔ ∀ e ∈ s.slots, e.occupied = false) ∧
      (∀ i, s.isFull = true ↔ (s.push i).2 = false) ∧
      ∀ q, s.Serves q (s.ask q).2 (s.ask q).1 ∧
        ((s.ask q).2 = .pushed false ∨ (s.ask q).2 = .issued none → (s.ask q).1 = s) ∧
        ∀ (n : ℕ) (e : Entry), s.slots[n]? = some e → e.occupied = false →
          (s.ask q).1.slots[n]? = some e ∨
            s.LowestFree n ∧ ∃ i, q = .push i ∧ (s.ask q).2 = .pushed true ∧
              (s.ask q).1.slots[n]? = some ⟨true, i.opcode, i.tag, i.operands⟩ := by
  intro s
  obtain ⟨hc, hcap, htags⟩ : s.Counted ∧ s.capacity = capacity ∧ s.tags = tags := by
    refine askAll_keeps (P := fun s => s.Counted ∧ s.capacity = capacity ∧ s.tags = tags)
      (fun ⟨hc, hcap, htags⟩ q => ?_) ⟨counted_empty tags capacity, ?_, rfl⟩ queries
    · exact ⟨counted_ask hc q, (serves_ask _ q).capacity.trans hcap, (tags_ask _ q).trans htags⟩
    · exact List.length_replicate
  clear_value s
  refine ⟨htags, hcap, ?_, ?_, isFull_iff_push hc, fun q => ?_⟩
  · rw [hc, live, List.countP_eq_length_filter]
  · rw [isEmpty_iff hc, live, List.filter_eq_nil_iff]
    simp only [Bool.not_eq_true]
  · have h := s.serves_ask q
    exact ⟨h, h.eq_self, fun n e => h.free_slot⟩

/-- A third instruction finds no room in two slots. The slot of the first is free once it is issued,
and keeps what is in it until another comes. The second is issued with the value and the flags that
it has waited for. -/
theorem slots_answer_requests_reused :
    let i n a f := Instruction.of (.alu .add) n a (.ready 2) f
    let s := (empty ⟨4, by decide, by decide⟩ 2).askAll [.push (i 5 (.ready 1) (.ready 0)),
      .push (i 6 (.waitingOn ⟨5⟩) (.waitingOn ⟨5⟩)), .push (i 7 (.ready 1) (.ready 0)), .issue,
      .wake ⟨⟨5⟩, ⟨3, 1⟩⟩]
    let add := Opcode.encode (.alu .add)
    let freed : Entry := ⟨false, add, ⟨5⟩, ⟨⟨false, ⟨0⟩, 1⟩, ⟨false, ⟨0⟩, 2⟩, ⟨false, ⟨0⟩, 0⟩⟩⟩
    s.slots = [freed, ⟨true, add, ⟨6⟩, ⟨⟨false, ⟨5⟩, 3⟩, ⟨false, ⟨0⟩, 2⟩, ⟨false, ⟨5⟩, 1⟩⟩⟩] ∧
      s.occupied = 1 ∧ (s.ask .issue).2 = .issued (some ⟨⟨6⟩, add, ⟨3, 2, 1⟩⟩) ∧
      (s.ask .issue).1.slots[0]? = some freed ∧
      (s.ask (.push (i 7 (.ready 4) (.waitingOn ⟨6⟩)))).1.slots[0]? =
        some ⟨true, add, ⟨7⟩, ⟨⟨false, ⟨0⟩, 4⟩, ⟨false, ⟨0⟩, 2⟩, ⟨true, ⟨6⟩, 0⟩⟩⟩ := by
  intro i s add freed
  obtain ⟨-, -, hcount, -, -, h⟩ := slots_answer_requests ⟨4, by decide, by decide⟩ 2
    [.push (i 5 (.ready 1) (.ready 0)), .push (i 6 (.waitingOn ⟨5⟩) (.waitingOn ⟨5⟩)),
      .push (i 7 (.ready 1) (.ready 0)), .issue, .wake ⟨⟨5⟩, ⟨3, 1⟩⟩]
  have hslots : s.slots =
    [freed, ⟨true, add, ⟨6⟩, ⟨⟨false, ⟨5⟩, 3⟩, ⟨false, ⟨0⟩, 2⟩, ⟨false, ⟨5⟩, 1⟩⟩⟩] := by
      decide +kernel
  obtain ⟨-, -, hfree⟩ := h .issue
  refine ⟨hslots, hcount.trans (by decide +kernel), by decide +kernel, ?_, by decide +kernel⟩
  exact (hfree 0 freed (by rw [hslots]; rfl) rfl).resolve_right fun ⟨_, _, hq, _⟩ => nomatch hq

end OutOfOrder.Station
