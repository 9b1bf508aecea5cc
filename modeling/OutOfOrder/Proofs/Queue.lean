import Mathlib
import OutOfOrder.Proofs.ReorderBuffer

/-!
# The reorder buffer is a bounded queue

Who uses a reorder buffer sees a list of entries, oldest first, with room for one entry fewer than
there are cells; marks and cells do not show. `Queue.ask` says what such a list answers and what
becomes of it, and is written without any of them. A buffer and the list of its entries answer
alike and stay alike, request by request (`ask_entries`), so they do over any sequence of
requests (`askAll_simulates`).

That a request did nothing can be seen of the list, and then it holds of the marks and of all cells
too, those that hold no entry included (`ask_eq_self`).
-/

namespace OutOfOrder.ReorderBuffer

/-! ## Requests -/

/-- What a buffer can be asked for. -/
inductive Query
  | push (opcode : Opcode) (tag : Tag)
  | complete (r : Result)
  | retire
  | lookup (tag : Tag)
  | peek

/-- An answer: whether it was done, the entry that was there, or the outcome that was found. -/
inductive Reply
  | done (success : Bool)
  | entry (e : Option Entry)
  | outcome (o : Option Outcome)
deriving DecidableEq

def ask (b : ReorderBuffer) : Query → ReorderBuffer × Reply
  | .push opcode tag => ((b.push opcode tag).1, .done (b.push opcode tag).2)
  | .complete r => ((b.complete r).1, .done (b.complete r).2)
  | .retire =>
    match b.retire with
    | some (e, rest) => (rest, .entry (some e))
    | none => (b, .entry none)
  | .lookup tag => (b, .outcome (b.lookup tag))
  | .peek => (b, .entry b.oldest?)

/-- Asks for one thing after the other. -/
def askAll {σ : Type} (ask : σ → Query → σ × Reply) : σ → List Query → σ × List Reply
  | s, [] => (s, [])
  | s, q :: queries =>
    let (now, reply) := ask s q
    let (last, replies) := askAll ask now queries
    (last, reply :: replies)

/-- Two that answer alike while they are related, and stay related, answer alike for good. -/
theorem askAll_simulates {σ τ : Type} {f : σ → Query → σ × Reply} {g : τ → Query → τ × Reply}
    {R : σ → τ → Prop}
    (step : ∀ {s t}, R s t → ∀ q, R (f s q).1 (g t q).1 ∧ (f s q).2 = (g t q).2)
    {s : σ} {t : τ} (h : R s t) (queries : List Query) :
    R (askAll f s queries).1 (askAll g t queries).1 ∧
      (askAll f s queries).2 = (askAll g t queries).2 := by
  induction queries generalizing s t with
  | nil => exact ⟨h, rfl⟩
  | cons q queries ih =>
    obtain ⟨hnext, hreply⟩ := step h q
    obtain ⟨hlast, hreplies⟩ := ih hnext
    exact ⟨hlast, by simp only [askAll, hreply, hreplies]⟩

/-! ## The queue -/

namespace Queue

/-- The oldest entry with the tag takes the outcome, if it waits; no other one is looked at. -/
def complete (r : Result) : List Entry → List Entry × Bool
  | [] => ([], false)
  | e :: rest =>
    if e.tag = r.tag then
      if e.waiting then ({ e with waiting := false, outcome := r.outcome } :: rest, true)
      else (e :: rest, false)
    else (e :: (complete r rest).1, (complete r rest).2)

/-- The outcome of the oldest entry that carries the tag and does not wait. -/
def lookup (t : Tag) : List Entry → Option Outcome
  | [] => none
  | e :: rest => if e.tag = t ∧ e.waiting = false then some e.outcome else lookup t rest

/-- What becomes of a queue with room for so many entries, and what it answers. -/
def ask (room : Nat) (l : List Entry) : Query → List Entry × Reply
  | .push opcode tag =>
    if l.length < room then (l ++ [⟨true, opcode, tag, ⟨0, 0⟩⟩], .done true) else (l, .done false)
  | .complete r => ((complete r l).1, .done (complete r l).2)
  | .retire =>
    match l with
    | [] => (l, .entry none)
    | e :: rest => if e.waiting then (l, .entry none) else (rest, .entry (some e))
  | .lookup tag => (l, .outcome (lookup tag l))
  | .peek => (l, .entry l.head?)

theorem lookup_eq (t : Tag) (l : List Entry) :
    lookup t l = (l.find? fun e => e.tag == t && !e.waiting).map (·.outcome) := by
  induction l with
  | nil => rfl
  | cons e l ih =>
    by_cases h : e.tag = t ∧ e.waiting = false
    · simp [lookup, h.1, h.2]
    · rw [lookup, if_neg h, ih, List.find?_cons_of_neg (by simpa using h)]

/-- The entry that is completed, by its place. -/
theorem complete_eq (r : Result) (l : List Entry) :
    complete r l =
      match l.findIdx? (·.tag == r.tag) with
      | none => (l, false)
      | some i =>
        (l.modify i fun e => if e.waiting then e.complete r.outcome else e,
          (l[i]?.map (·.waiting)).getD false) := by
  induction l with
  | nil => rfl
  | cons e l ih =>
    rw [List.findIdx?_cons, complete]
    by_cases ht : e.tag = r.tag
    · cases hw : e.waiting <;> simp [ht, hw, Entry.complete]
    · rw [ih, if_neg ht, if_neg (by simpa using ht)]
      cases l.findIdx? (·.tag == r.tag) <;> simp

/-- A queue is changed exactly if an entry was completed. -/
theorem complete_eq_self_iff (r : Result) (l : List Entry) :
    (complete r l).1 = l ↔ (complete r l).2 = false := by
  induction l with
  | nil => simp [complete]
  | cons e l ih =>
    by_cases ht : e.tag = r.tag
    · cases hw : e.waiting with
      | false => simp [complete, ht, hw]
      | true =>
        have hne : { e with waiting := false, outcome := r.outcome } ≠ e := fun h => by
          rw [← h] at hw
          cases hw
        simpa only [complete, ht, hw, if_true, List.cons.injEq, and_true, reduceCtorEq,
          iff_false] using hne
    · simp [complete, ht, ih]

end Queue

/-! ## The buffer against the queue -/

variable (b : ReorderBuffer)

theorem complete_eq_queue (r : Result) :
    ((b.complete r).1.entries, (b.complete r).2) = Queue.complete r b.entries := by
  rw [entries_complete, Queue.complete_eq, complete_eq]
  cases h : b.entries.findIdx? (·.tag == r.tag) with
  | none => rfl
  | some i =>
    obtain ⟨hi, -⟩ := List.findIdx?_eq_some_iff_getElem.1 h
    rw [length_entries] at hi
    simp only [getElem?_entries, hi, if_true, Option.map_some, Option.getD_some]
    split <;> simp_all

theorem complete_eq_self {r : Result} (h : (b.complete r).2 = false) : (b.complete r).1 = b := by
  unfold complete at h ⊢
  cases hn : b.find r.tag with
  | none => rfl
  | some n =>
    rw [hn] at h
    by_cases hw : b.cells[n].waiting = true
    · cases (congrArg Prod.snd (if_pos hw)).symm.trans h
    · exact congrArg Prod.fst (if_neg hw)

theorem isFull_eq_false_iff_lt {room : Nat} (hc : b.capacity = room + 1) :
    b.isFull = false ↔ b.entries.length < room := by
  rw [isFull_eq_false_iff, hc]
  exact Nat.add_lt_add_iff_right

/-- One request: the entries of the buffer become what the queue becomes, and the answer is that of
the queue. -/
theorem ask_entries {room : Nat} (hc : b.capacity = room + 1) (q : Query) :
    (b.ask q).1.entries = (Queue.ask room b.entries q).1 ∧
      (b.ask q).2 = (Queue.ask room b.entries q).2 := by
  cases q with
  | push opcode tag =>
    cases hf : b.isFull with
    | true =>
      have hlen : ¬ b.entries.length < room := by
        rw [← b.isFull_eq_false_iff_lt hc, hf]
        nofun
      simp only [ask, Queue.ask, push, hf, if_true, if_neg hlen, and_self]
    | false =>
      have hlen : b.entries.length < room := (b.isFull_eq_false_iff_lt hc).1 hf
      have hdone : (b.push opcode tag).2 = true := by simp [push, hf]
      simp only [ask, Queue.ask, if_pos hlen, b.entries_push opcode tag hf, hdone, Entry.pending,
        and_self]
  | complete r =>
    have h := b.complete_eq_queue r
    simp only [ask, Queue.ask, ← h, and_self]
  | retire =>
    cases hr : b.retire with
    | none =>
      -- the queue is empty, or its first entry waits
      have hw := retire_eq_none.1 hr
      cases he : b.entries with
      | nil => simp only [ask, hr, he, Queue.ask, and_self]
      | cons e rest =>
        rw [he] at hw
        simp only [ask, hr, he, Queue.ask, hw e rfl, if_true, and_self]
    | some p =>
      obtain ⟨he, hw, -⟩ := retire_eq_some hr
      simp only [ask, hr, he, Queue.ask, hw, Bool.false_eq_true, if_false, and_self]
  | lookup tag => exact ⟨rfl, by rw [Queue.ask, Queue.lookup_eq]; rfl⟩
  | peek => exact ⟨rfl, congrArg Reply.entry b.oldest?_eq⟩

theorem capacity_ask (q : Query) : (b.ask q).1.capacity = b.capacity := by
  cases q with
  | push opcode tag => exact b.capacity_push opcode tag
  | complete r => exact b.capacity_complete r
  | retire =>
    cases hr : b.retire with
    | none => simp only [ask, hr]
    | some p =>
      simp only [ask, hr]
      exact (retire_eq_some hr).2.2
  | lookup tag => rfl
  | peek => rfl

/-- A request that leaves the queue alone leaves the marks and every cell alone. -/
theorem ask_eq_self {room : Nat} (hc : b.capacity = room + 1) {q : Query}
    (h : (Queue.ask room b.entries q).1 = b.entries) : (b.ask q).1 = b := by
  rw [← (b.ask_entries hc q).1] at h
  cases q with
  | push opcode tag =>
    cases hf : b.isFull with
    | true => simp only [ask, push, hf, if_true]
    | false =>
      have hlen := congrArg List.length h
      simp only [ask, b.entries_push opcode tag hf, List.length_append,
        List.length_singleton] at hlen
      omega
  | complete r =>
    obtain ⟨hentries, hdone⟩ := Prod.mk.inj (b.complete_eq_queue r)
    refine b.complete_eq_self (hdone.trans ((Queue.complete_eq_self_iff r b.entries).1 ?_))
    exact hentries.symm.trans h
  | retire =>
    cases hr : b.retire with
    | none => simp only [ask, hr]
    | some p =>
      obtain ⟨he, -⟩ := retire_eq_some hr
      have hlen := congrArg List.length h
      simp only [ask, hr, he, List.length_cons] at hlen
      omega
  | lookup tag => rfl
  | peek => rfl

/-! ## Any sequence of requests -/

/-- The buffer has room for one entry fewer than it has cells, and these are the entries of the
queue. -/
def Shows (room : Nat) (b : ReorderBuffer) (l : List Entry) : Prop :=
  b.capacity = room + 1 ∧ b.entries = l

theorem Shows.ask {room : Nat} {b : ReorderBuffer} {l : List Entry} (h : Shows room b l)
    (q : Query) :
    Shows room (b.ask q).1 (Queue.ask room l q).1 ∧ (b.ask q).2 = (Queue.ask room l q).2 := by
  obtain ⟨hc, rfl⟩ := h
  obtain ⟨hentries, hreply⟩ := b.ask_entries hc q
  exact ⟨⟨(b.capacity_ask q).trans hc, hentries⟩, hreply⟩

theorem capacity_empty (capacity : Nat) : (empty capacity).capacity = max capacity 2 :=
  Array.size_replicate

/-- A reorder buffer that was asked for any number of things, whatever tags they carry, is a queue
with room for one entry fewer than it has cells, of which there are as many as were wanted, but two
at least. It has answered what the queue answers and its entries are those of the queue; the marks
stay within the cells; its length, and whether it is empty or full, are those of the queue, which
keeps to its room; and the next request changes nothing at all where it does not change the
queue. -/
theorem ring_refines_queue (capacity : Nat) (queries : List Query) :
    let cells := max capacity 2
    let (b, replies) := askAll ask (empty capacity) queries
    let (l, answers) := askAll (Queue.ask (cells - 1)) [] queries
    replies = answers ∧ b.entries = l ∧ b.capacity = cells ∧ b.head < cells ∧ b.tail < cells ∧
      l.length ≤ cells - 1 ∧ b.length = l.length ∧ (b.isEmpty = true ↔ l = []) ∧
      (b.isFull = true ↔ l.length = cells - 1) ∧
      ∀ q, (Queue.ask (cells - 1) l q).1 = l → (b.ask q).1 = b := by
  intro cells
  have hcells : cells = cells - 1 + 1 := by omega
  have hstart : Shows (cells - 1) (empty capacity) [] :=
    ⟨(capacity_empty capacity).trans hcells, entries_empty capacity⟩
  obtain ⟨⟨hc, he⟩, hreplies⟩ := askAll_simulates (fun h q => h.ask q) hstart queries
  generalize askAll ask (empty capacity) queries = served at hc he hreplies ⊢
  generalize askAll (Queue.ask (cells - 1)) [] queries = model at he hreplies ⊢
  obtain ⟨b, replies⟩ := served
  obtain ⟨l, answers⟩ := model
  obtain rfl : b.entries = l := he
  have hsize : b.cells.size = cells := hc.trans hcells.symm
  have hlen := b.length_entries_lt
  rw [hc] at hlen
  refine ⟨hreplies, rfl, hsize, hsize ▸ b.head_lt, hsize ▸ b.tail_lt, Nat.le_of_lt_succ hlen,
    b.length_entries.symm, b.isEmpty_eq_true_iff, ?_, fun q => b.ask_eq_self hc⟩
  rw [b.isFull_iff, b.length_entries, hsize]
  omega

/-- A result goes to the oldest entry with its tag. Once that one is complete the others have to
wait until it has retired, although one of them waits for the same tag. -/
example :
    (askAll ask (empty 3) [.push ⟨0⟩ ⟨5⟩, .push ⟨1⟩ ⟨5⟩, .push ⟨2⟩ ⟨6⟩, .complete ⟨⟨5⟩, ⟨7, 0⟩⟩,
        .complete ⟨⟨5⟩, ⟨8, 0⟩⟩, .lookup ⟨5⟩, .retire, .complete ⟨⟨5⟩, ⟨8, 0⟩⟩, .peek]).2 =
      [.done true, .done true, .done false, .done true, .done false, .outcome (some ⟨7, 0⟩),
        .entry (some ⟨false, ⟨0⟩, ⟨5⟩, ⟨7, 0⟩⟩), .done true,
        .entry (some ⟨false, ⟨1⟩, ⟨5⟩, ⟨8, 0⟩⟩)] := by
  decide +kernel

end OutOfOrder.ReorderBuffer
