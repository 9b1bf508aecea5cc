import Mathlib
import OutOfOrder.Program.Reader
import OutOfOrder.Proofs.Contract

/-!
# Which records make a program

Records are taken one after another, each with what was kept of those before it. What comes of it
can be said of the whole list at once (`accepts_legal_records`). `Record.tagNumber` is the number
that each record goes by, `Record.Legal` is what is asked of a record, `Record.Says` ties it to its
instruction, and `Record.firstFault?` is the first of its faults in the order of the checks.

What is kept are an allocator, which starts anew after each tag that is given, and the latest place
of each tag. `Loader.After` says what that amounts to: the allocator is about to hand out the number
of the next record, and the place that is kept of a tag is where a search from the last record back
to the first one would end.

`Checked` is how the two readings are tied together: a computation that fails with the fault that
its check finds, and otherwise ends in a result as it should be. Computations that are run one after
the other are checked by the first of their faults (`Checked.bind`).
-/

namespace OutOfOrder

/-! ## Checked computations -/

/-- The computation fails with the fault, or there is none and the result is as it should be. -/
inductive Checked {ε α : Type} (P : α → Prop) : Option ε → Except ε α → Prop
  | ok {a : α} (h : P a) : Checked P none (.ok a)
  | error (e : ε) : Checked P (some e) (.error e)

namespace Checked

variable {ε ε' α β : Type} {P : α → Prop} {Q : β → Prop} {fault : Option ε} {x : Except ε α}

theorem bind {f : α → Except ε β} {later : Option ε} (hx : Checked P fault x)
    (hf : ∀ a, P a → Checked Q later (f a)) : Checked Q (fault.or later) (x >>= f) := by
  cases hx with
  | ok h => exact hf _ h
  | error e => exact .error e

theorem map {f : α → β} (hx : Checked P fault x) (hf : ∀ a, P a → Q (f a)) :
    Checked Q fault (x.map f) := by
  cases hx with
  | ok h => exact .ok (hf _ h)
  | error e => exact .error e

theorem bind_pure {f : α → β} (hx : Checked P fault x) (hf : ∀ a, P a → Q (f a)) :
    Checked Q fault (x >>= fun a => pure (f a)) := by
  rw [bind_pure_comp]
  exact hx.map hf

theorem mapError (hx : Checked P fault x) (g : ε → ε') :
    Checked P (fault.map g) (x.mapError g) := by
  cases hx with
  | ok h => exact .ok h
  | error e => exact .error _

theorem eq_ok {a : α} (hx : Checked P fault x) (h : x = .ok a) : fault = none ∧ P a := by
  cases hx with
  | ok ha =>
    cases h
    exact ⟨rfl, ha⟩
  | error e => cases h

theorem eq_error {e : ε} (hx : Checked P fault x) (h : x = .error e) : fault = some e := by
  cases hx with
  | ok ha => cases h
  | error e' =>
    cases h
    rfl

theorem exists_ok_iff (hx : Checked P fault x) : (∃ a, x = .ok a) ↔ fault = none := by
  cases hx with
  | ok h => simp
  | error e => simp

end Checked

/-! ## Searching downwards -/

/-- The search ends in the greatest number below `n` that has the property. -/
theorem find?_below_eq_some_iff {p : Nat → Bool} {m : Nat} :
    ∀ {n : Nat}, (List.range n).reverse.find? p = some m ↔
      m < n ∧ p m = true ∧ ∀ k, m < k → k < n → p k = false
  | 0 => by simp
  | n + 1 => by
    rw [List.range_succ, List.reverse_append, List.reverse_singleton, List.singleton_append,
      List.find?_cons]
    cases hp : p n with
    | true =>
      constructor
      · intro h
        cases h
        exact ⟨by omega, hp, fun k _ _ => by omega⟩
      · rintro ⟨hm, -, hk⟩
        by_contra hne
        have hmn : m ≠ n := fun h => hne (congrArg some h.symm)
        rw [hk n (by omega) (by omega)] at hp
        cases hp
    | false =>
      rw [find?_below_eq_some_iff]
      constructor
      · rintro ⟨hm, hpm, hk⟩
        refine ⟨by omega, hpm, fun k hmk hkn => ?_⟩
        rcases Nat.lt_succ_iff_lt_or_eq.1 hkn with hlt | rfl
        · exact hk k hmk hlt
        · exact hp
      · rintro ⟨hm, hpm, hk⟩
        refine ⟨?_, hpm, fun k hmk hkn => hk k hmk (by omega)⟩
        rcases Nat.lt_succ_iff_lt_or_eq.1 hm with hlt | rfl
        · exact hlt
        · rw [hp] at hpm
          cases hpm

/-! ## Opcodes and operands -/

namespace WrittenOpcode

/-- The opcode that is written: a word that decodes, or that of the operation with the mnemonic. -/
inductive Says : WrittenOpcode → Opcode → Prop
  | word {w : UInt32} (h : (Opcode.mk w).decode.isSome = true) : Says (.word w) ⟨w⟩
  | mnemonic {name : String} {operation : Operation}
      (h : Operation.ofMnemonic? name = some operation) : Says (.mnemonic name) (.encode operation)

def fault? : WrittenOpcode → Option RecordFault
  | word w => if (Opcode.mk w).decode.isSome then none else some (.badOpcode ⟨w⟩)
  | mnemonic name =>
    if (Operation.ofMnemonic? name).isSome then none else some (.unknownMnemonic name)

theorem checked_resolve (w : WrittenOpcode) : Checked w.Says w.fault? w.resolve := by
  cases w with
  | word w =>
    rw [fault?, resolve]
    split
    · exact .ok (.word ‹_›)
    · exact .error _
  | mnemonic name =>
    rw [fault?, resolve]
    cases h : Operation.ofMnemonic? name with
    | none => exact .error _
    | some operation => exact .ok (.mnemonic h)

theorem fault?_eq_none_iff {w : WrittenOpcode} : w.fault? = none ↔ ∃ o, w.Says o := by
  constructor
  · intro h
    obtain ⟨o, ho⟩ := w.checked_resolve.exists_ok_iff.2 h
    exact ⟨o, (w.checked_resolve.eq_ok ho).2⟩
  · rintro ⟨o, h | h⟩
    · exact if_pos h
    · exact if_pos (by rw [h]; rfl)

end WrittenOpcode

namespace TagSpace

/-- What is wrong with a number that is given as a tag. -/
def fault? (s : TagSpace) (n : Nat) : Option RecordFault :=
  if n < s.size then none else some (.tagOutOfRange n s.bits)

theorem fault?_eq_none_iff {s : TagSpace} {n : Nat} : s.fault? n = none ↔ n < s.size := by
  unfold fault?
  split <;> simp [*]

theorem checked_checked (s : TagSpace) (n : Nat) :
    Checked (fun t => t.index = n ∧ n < s.size) (s.fault? n) (s.checked n) := by
  unfold fault? TagSpace.checked contains
  by_cases h : n < s.size
  · rw [if_pos h, if_pos (decide_eq_true h)]
    exact .ok ⟨by rw [index_tag, Nat.mod_eq_of_lt h], h⟩
  · rw [if_neg h, if_neg (by simpa using h)]
    exact .error _

end TagSpace

namespace WrittenOperand

/-- The operand that is written: the value 0, the value that is given, or a wait for a tag. -/
inductive Says (s : TagSpace) : Option WrittenOperand → Operand → Prop
  | absent : Says s none ⟨false, ⟨0⟩, 0⟩
  | value (v : Int32) : Says s (some (.value v)) ⟨false, ⟨0⟩, v⟩
  | wait {t : Tag} (h : t.index < s.size) : Says s (some (.wait t.index)) ⟨true, t, 0⟩

def fault? (s : TagSpace) : Option WrittenOperand → Option RecordFault
  | none | some (value _) => none
  | some (wait n) => s.fault? n

theorem checked_resolve (s : TagSpace) (w : Option WrittenOperand) :
    Checked (Says s w) (fault? s w) (resolve s w) := by
  match w with
  | none => exact .ok .absent
  | some (value v) => exact .ok (.value v)
  | some (wait n) =>
    refine (s.checked_checked n).map fun t ht => ?_
    obtain ⟨rfl, hn⟩ := ht
    exact .wait hn

theorem fault?_eq_none_iff {s : TagSpace} {w : Option WrittenOperand} :
    fault? s w = none ↔ ∀ n, w = some (.wait n) → n < s.size := by
  match w with
  | none => simp [fault?]
  | some (value v) => simp [fault?]
  | some (wait m) => simp [fault?, TagSpace.fault?_eq_none_iff]

end WrittenOperand

/-! ## Records -/

namespace Record

/-- The number of each record's tag: the one it names, else the one after that of the record before
it, going round, and 0 for a first record that names none. -/
def tagNumber (s : TagSpace) (records : List Record) : Nat → Nat
  | 0 => (records[0]?.bind (·.tag)).getD 0
  | n + 1 => (records[n + 1]?.bind (·.tag)).getD ((tagNumber s records n + 1) % s.size)

/-- What is asked of record `n`. -/
structure Legal (s : TagSpace) (records : List Record) (n : Nat) (r : Record) : Prop where
  opcode : ∃ o, r.opcode.Says o
  tag : ∀ m, r.tag = some m → m < s.size
  reuse : ∀ m < n, tagNumber s records m = tagNumber s records n → m + s.window ≤ n
  waits : ∀ k m, r.operands.get k = some (.wait m) → m < s.size

/-- The instruction that record `n` stands for. -/
structure Says (s : TagSpace) (records : List Record) (n : Nat) (r : Record) (i : Instruction) :
    Prop where
  opcode : r.opcode.Says i.opcode
  tag : i.tag.index = tagNumber s records n
  operands : ∀ k, WrittenOperand.Says s (r.operands.get k) (i.operands.get k)

/-- The latest of the records before record `n` that have its tag. -/
def holder? (s : TagSpace) (records : List Record) (n : Nat) : Option Nat :=
  (List.range n).reverse.find? fun m => tagNumber s records m == tagNumber s records n

def reuseFault? (s : TagSpace) (records : List Record) (n : Nat) : Option RecordFault :=
  (holder? s records n).bind fun m =>
    if n < m + s.window then some (.duplicateTag (tagNumber s records n) m) else none

/-- The fault that record `n` is refused for. -/
def firstFault? (s : TagSpace) (records : List Record) (n : Nat) (r : Record) :
    Option RecordFault :=
  r.opcode.fault?.or <| (r.tag.bind s.fault?).or <| (reuseFault? s records n).or <|
    (WrittenOperand.fault? s r.operands.a).or <| (WrittenOperand.fault? s r.operands.b).or <|
      WrittenOperand.fault? s r.operands.f

variable {s : TagSpace} {records : List Record} {n : Nat} {r : Record}

/-- No record that has the tag is closer than the latest one. -/
theorem reuseFault?_eq_none_iff :
    reuseFault? s records n = none ↔
      ∀ m < n, tagNumber s records m = tagNumber s records n → m + s.window ≤ n := by
  cases hh : holder? s records n with
  | none =>
    have hnone : ∀ m < n, tagNumber s records m ≠ tagNumber s records n := by
      simpa [holder?] using hh
    simp only [reuseFault?, hh, Option.bind_none, true_iff]
    exact fun m hm he => absurd he (hnone m hm)
  | some m =>
    obtain ⟨hm, ht, hlatest⟩ := find?_below_eq_some_iff.1 hh
    rw [beq_iff_eq] at ht
    simp only [reuseFault?, hh, Option.bind_some, ite_eq_right_iff, reduceCtorEq, imp_false,
      Nat.not_lt]
    constructor
    · intro hw k hk hkt
      have hle : k ≤ m := by
        by_contra hlt
        have := hlatest k (by omega) hk
        rw [beq_eq_false_iff_ne] at this
        exact this hkt
      omega
    · intro h
      exact h m hm ht

theorem reuseFault?_of_duplicateTag {tag previous : Nat}
    (h : r.firstFault? s records n = some (.duplicateTag tag previous)) :
    reuseFault? s records n = some (.duplicateTag tag previous) := by
  have hopcode : ∀ w : WrittenOpcode, w.fault? ≠ some (.duplicateTag tag previous) := by
    intro w
    cases w <;> (simp only [WrittenOpcode.fault?]; split <;> nofun)
  have hnumber : ∀ m, s.fault? m ≠ some (.duplicateTag tag previous) := by
    intro m
    unfold TagSpace.fault?
    split <;> nofun
  have hoperand : ∀ w, WrittenOperand.fault? s w ≠ some (.duplicateTag tag previous) := by
    intro w
    match w with
    | none | some (.value v) => nofun
    | some (.wait m) => exact hnumber m
  have hchain : r.opcode.fault? = none ∧ (∀ m, r.tag = some m → s.fault? m = none) ∧
      reuseFault? s records n = some (.duplicateTag tag previous) := by
    simpa [firstFault?, Option.or_eq_some_iff, Option.bind_eq_some_iff, hopcode, hnumber,
      hoperand] using h
  exact hchain.2.2

theorem firstFault?_eq_none_iff : r.firstFault? s records n = none ↔ r.Legal s records n := by
  simp only [firstFault?, Option.or_eq_none_iff, WrittenOpcode.fault?_eq_none_iff,
    reuseFault?_eq_none_iff, WrittenOperand.fault?_eq_none_iff, Option.bind_eq_none_iff,
    TagSpace.fault?_eq_none_iff]
  constructor
  · rintro ⟨ho, ht, hr, ha, hb, hf⟩
    exact ⟨ho, ht, hr, fun k => by cases k <;> assumption⟩
  · rintro ⟨ho, ht, hr, hw⟩
    exact ⟨ho, ht, hr, hw .a, hw .b, hw .f⟩

end Record

/-! ## What is kept from record to record -/

namespace Loader

open Record (tagNumber reuseFault? holder?)

variable {s : TagSpace} {records : List Record} {n : Nat}

/-- What is kept after the first `n` records: tags go on with the number of the next record, unless
that names its own, and a tag is kept with the latest of the records that have it. -/
structure After (s : TagSpace) (records : List Record) (n : Nat) (l : Loader) : Prop where
  space : l.tags.space = s
  upcoming : tagNumber s records n =
    (records[n]?.bind (·.tag)).getD l.tags.upcoming.index
  lastUse : ∀ t, l.lastUse.get? t =
    (List.range n).reverse.find? fun m => tagNumber s records m == t.index

theorem After.start (s : TagSpace) (records : List Record) : After s records 0 (.start s) where
  space := rfl
  upcoming := by
    have h : (Loader.start s).tags.upcoming.index = 0 :=
      (s.index_tag 0).trans (Nat.zero_mod _)
    rw [h]
    rfl
  lastUse := fun _ => rfl

namespace After

variable {l : Loader} (h : After s records n l)
include h

/-- The tag of the next record, with the allocator behind it and the last uses as they were. -/
theorem checked_takeTag {r : Record} (hr : records[n]? = some r) :
    Checked (fun p => p.1.index = tagNumber s records n ∧ p.2.tags.space = s ∧
        p.2.tags.upcoming.index = (p.1.index + 1) % s.size ∧ p.2.lastUse = l.lastUse)
      (r.tag.bind s.fault?) (l.takeTag s r.tag) := by
  have hnumber := h.upcoming
  rw [hr, Option.bind_some] at hnumber
  unfold takeTag
  cases ht : r.tag with
  | none =>
    rw [ht] at hnumber
    refine .ok ⟨hnumber.symm, h.space, ?_, rfl⟩
    change (l.tags.space.next l.tags.upcoming).index = _
    rw [h.space, TagSpace.next, TagSpace.index_tag]
  | some m =>
    rw [ht] at hnumber
    obtain rfl : tagNumber s records n = m := hnumber
    refine (s.checked_checked _).map fun t ht => ⟨ht.1, rfl, ?_, rfl⟩
    change (s.tag _).index = _
    rw [TagSpace.index_tag, ht.1]

/-- The place that is kept of a record's tag is that of its latest holder. -/
theorem get?_eq_holder? {t : Tag} (ht : t.index = tagNumber s records n) :
    l.lastUse.get? t = holder? s records n := by
  rw [h.lastUse, ht]
  rfl

/-- Once the tag of the next record is taken, what is kept is what it should be after it. -/
theorem use {t : Tag} (ht : t.index = tagNumber s records n) {tags : TagAllocator}
    (hspace : tags.space = s) (hupcoming : tags.upcoming.index = (t.index + 1) % s.size) :
    After s records (n + 1) ⟨tags, l.lastUse.insert t n⟩ where
  space := hspace
  upcoming := by
    rw [hupcoming, ht]
    rfl
  lastUse v := by
    rw [LastUses.get?_insert, h.lastUse, List.range_succ, List.reverse_append,
      List.reverse_singleton, List.singleton_append, List.find?_cons, ← ht]
    by_cases hv : v = t
    · subst hv
      simp
    · have : (t.index == v.index) = false := by
        simpa [Tag.index_inj] using fun he : t = v => hv he.symm
      rw [if_neg hv, this]

theorem checked_useTag {t : Tag} (ht : t.index = tagNumber s records n) {tags : TagAllocator}
    (hspace : tags.space = s) (hupcoming : tags.upcoming.index = (t.index + 1) % s.size) :
    Checked (After s records (n + 1)) (reuseFault? s records n)
      (useTag s n ⟨tags, l.lastUse⟩ t) := by
  unfold useTag reuseFault?
  rw [h.get?_eq_holder? ht]
  cases hh : holder? s records n with
  | none => exact .ok (h.use ht hspace hupcoming)
  | some m =>
    have hm := (find?_below_eq_some_iff.1 hh).1
    rw [Option.bind_some, Option.filter_some]
    by_cases hw : n < m + s.window
    · rw [if_pos hw, if_pos (by rw [decide_eq_true_eq]; omega), ht]
      exact .error _
    · rw [if_neg hw, if_neg (by rw [decide_eq_true_eq]; omega)]
      exact .ok (h.use ht hspace hupcoming)

/-- A record is refused for its first fault, or else its instruction is as it says, and what is kept
is right for the next one. -/
theorem checked_resolve {r : Record} (hr : records[n]? = some r) :
    Checked (fun p => r.Says s records n p.1 ∧ After s records (n + 1) p.2)
      (r.firstFault? s records n) (r.resolve s n l) :=
  r.opcode.checked_resolve.bind fun _ ho =>
    (h.checked_takeTag hr).bind fun ⟨_, ⟨_, _⟩⟩ ⟨ht, hspace, hupcoming, hlast⟩ =>
      (hlast ▸ h.checked_useTag ht hspace hupcoming).bind fun _ hnext =>
        (WrittenOperand.checked_resolve s r.operands.a).bind fun _ ha =>
          (WrittenOperand.checked_resolve s r.operands.b).bind fun _ hb =>
            (WrittenOperand.checked_resolve s r.operands.f).bind_pure fun _ hf =>
              ⟨⟨ho, ht, fun k => by cases k <;> assumption⟩, hnext⟩

end After

end Loader

/-! ## All records -/

namespace Record

variable {s : TagSpace} {records : List Record} {n : Nat} {r : Record}

/-- The first fault of the first that has one, among some of the records with their places. -/
def firstError? (s : TagSpace) (records : List Record) (placed : List (Record × Nat)) :
    Option RecordError :=
  placed.findSome? fun p => (p.1.firstFault? s records p.2).map fun fault => ⟨p.2, fault⟩

theorem firstError?_eq_none_iff :
    firstError? s records records.zipIdx = none ↔
      ∀ n r, records[n]? = some r → Legal s records n r := by
  simp only [firstError?, List.findSome?_eq_none_iff, Option.map_eq_none_iff,
    firstFault?_eq_none_iff, Prod.forall, List.mem_zipIdx_iff_getElem?]
  exact forall_comm

theorem firstError?_eq_some {e : RecordError}
    (h : firstError? s records records.zipIdx = some e) :
    (∃ r, records[e.index]? = some r ∧ r.firstFault? s records e.index = some e.fault) ∧
      ∀ n < e.index, ∀ r, records[n]? = some r → Legal s records n r := by
  obtain ⟨before, ⟨r, n⟩, after, hl, hfirst, hbefore⟩ := List.findSome?_eq_some_iff.1 h
  obtain ⟨fault, hfault, rfl⟩ := Option.map_eq_some_iff.1 hfirst
  have hplace : records.zipIdx[before.length]? = some (r, n) := by rw [hl]; simp
  simp only [List.getElem?_zipIdx, Option.map_eq_some_iff, Prod.mk.injEq, Nat.zero_add] at hplace
  obtain ⟨_, hr, rfl, rfl⟩ := hplace
  refine ⟨⟨_, hr, hfault⟩, fun n hn r' hr' => ?_⟩
  have hmem : (r', n) ∈ before := by
    refine List.mem_of_getElem? (i := n) ?_
    rw [← List.getElem?_append_left hn, ← hl, List.getElem?_zipIdx, hr', Nat.zero_add]
    rfl
  have := hbefore _ hmem
  rwa [Option.map_eq_none_iff, firstFault?_eq_none_iff] at this

/-! ## Records that name no tags -/

section
variable (h : ∀ r ∈ records, r.tag = none)
include h

theorem tagNumber_of_none (n : Nat) : tagNumber s records n = n % s.size := by
  have hnone : ∀ n : Nat, records[n]?.bind Record.tag = none := by
    intro n
    rw [Option.bind_eq_none_iff]
    exact fun r hr => h r (List.mem_of_getElem? hr)
  induction n with
  | zero => rw [tagNumber, hnone, Nat.zero_mod]; rfl
  | succ n ih => rw [tagNumber, hnone, ih, Option.getD_none, Nat.mod_add_mod]

/-- Tags in a row come back after a lap, which is no sooner than a window. -/
theorem reuse_of_none {m n : Nat} (hm : m < n)
    (ht : tagNumber s records m = tagNumber s records n) : m + s.window ≤ n := by
  rw [tagNumber_of_none h, tagNumber_of_none h] at ht
  have hlap : s.size ∣ n - m := (Nat.modEq_iff_dvd' hm.le).1 ht
  have := Nat.le_of_dvd (by omega) hlap
  have := s.size_eq
  omega

theorem legal_of_none (hr : records[n]? = some r) :
    Legal s records n r ↔
      (∃ o, r.opcode.Says o) ∧ ∀ k m, r.operands.get k = some (.wait m) → m < s.size := by
  constructor
  · exact fun hl => ⟨hl.opcode, hl.waits⟩
  · rintro ⟨ho, hw⟩
    refine ⟨ho, ?_, fun m hm => reuse_of_none h hm, hw⟩
    rw [h r (List.mem_of_getElem? hr)]
    nofun

end

end Record

/-! ## Programs -/

namespace Program

variable {s : TagSpace} {records : List Record}

theorem checked_ofRecordsFrom :
    ∀ {rest : List Record} {n : Nat} {l : Loader}, records.drop n = rest →
      l.After s records n →
      Checked (List.Forall₂ (fun p i => p.1.Says s records p.2 i) (rest.zipIdx n))
        (Record.firstError? s records (rest.zipIdx n)) (ofRecordsFrom s n l rest)
  | [], _, _, _, _ => .ok .nil
  | r :: rest, n, l, hrest, h => by
    have hr : records[n]? = some r := by rw [← List.head?_drop, hrest]; rfl
    have hnext : records.drop (n + 1) = rest := by rw [← List.tail_drop, hrest]; rfl
    have hfirst : Record.firstError? s records ((r :: rest).zipIdx n) =
        ((r.firstFault? s records n).map fun fault => ⟨n, fault⟩).or
          (Record.firstError? s records (rest.zipIdx (n + 1))) := by
      simp only [Record.firstError?, List.zipIdx_cons, List.findSome?_cons]
      cases r.firstFault? s records n <;> rfl
    rw [hfirst, ofRecordsFrom]
    refine ((h.checked_resolve hr).mapError _).bind fun ⟨i, l⟩ ⟨hi, hl⟩ => ?_
    exact (checked_ofRecordsFrom hnext hl).bind_pure fun is his => .cons hi his

theorem checked_ofRecords (s : TagSpace) (records : List Record) :
    Checked (List.Forall₂ (fun p i => p.1.Says s records p.2 i) records.zipIdx)
      (Record.firstError? s records records.zipIdx) (ofRecords s records) :=
  checked_ofRecordsFrom List.drop_zero (.start s records)

/-- There is one instruction for each record, as the record says. -/
theorem says_of_ofRecords {program : Program} (h : ofRecords s records = .ok program) :
    program.length = records.length ∧
      ∀ (n : Nat) r i, records[n]? = some r → program[n]? = some i → r.Says s records n i := by
  have hall := ((checked_ofRecords s records).eq_ok h).2
  refine ⟨by rw [← hall.length_eq, List.length_zipIdx], fun n r i hr hi => ?_⟩
  obtain ⟨hn, rfl⟩ := List.getElem?_eq_some_iff.1 hr
  obtain ⟨hn', rfl⟩ := List.getElem?_eq_some_iff.1 hi
  simpa using hall.get (by simpa using hn) hn'

theorem legal_of_ofRecords {program : Program} (h : ofRecords s records = .ok program) :
    ∀ n r, records[n]? = some r → Record.Legal s records n r :=
  Record.firstError?_eq_none_iff.1 ((checked_ofRecords s records).eq_ok h).1

/-- Every program that is read for a tag space keeps its window between holders of a tag. -/
theorem spaced_of_ofText {text : String} {program : Program}
    (h : ofText s text = .ok program) : Spaced s.window (program.map (·.tag)) := by
  unfold ofText at h
  split at h
  · cases h
  rename_i records _
  cases hp : ofRecords s records with
  | error e =>
    rw [hp] at h
    cases h
  | ok p =>
    rw [hp] at h
    obtain rfl : p = program := Except.ok.inj h
    obtain ⟨hlen, hread⟩ := says_of_ofRecords hp
    have hnumber : ∀ n < p.length, (p.map (·.tag))[n]?.map Tag.index =
        some (Record.tagNumber s records n) := by
      intro n hn
      rw [List.getElem?_map, List.getElem?_eq_getElem hn]
      exact congrArg some (hread n records[n] p[n] (List.getElem?_eq_getElem _)
        (List.getElem?_eq_getElem hn)).tag
    intro j hj i hij he
    rw [List.length_map] at hj
    have hij' := congrArg (Option.map Tag.index) he
    rw [hnumber i (by omega), hnumber j hj] at hij'
    exact (legal_of_ofRecords hp j records[j] (List.getElem?_eq_getElem _)).reuse i hij
      (Option.some.inj hij')

end Program

/-- A list of records makes a program exactly if every record is legal. The program has one
instruction for each record, in order, that is as the record says. If there is none, the error names
the first record that is not legal and the first of its faults in the order opcode, tag, reuse of a
tag, operands. Where no record names its tag the numbers go round in a row, and no record is refused
for its tag. A text that is read as these records makes the same program. -/
theorem accepts_legal_records (s : TagSpace) (records : List Record) :
    ((∃ program, Program.ofRecords s records = .ok program) ↔
        ∀ n r, records[n]? = some r → Record.Legal s records n r) ∧
      (∀ program, Program.ofRecords s records = .ok program →
        program.length = records.length ∧
          ∀ (n : Nat) r i, records[n]? = some r → program[n]? = some i →
            r.Says s records n i) ∧
      (∀ e, Program.ofRecords s records = .error e →
        (∃ r, records[e.index]? = some r ∧ r.firstFault? s records e.index = some e.fault) ∧
          ∀ n < e.index, ∀ r, records[n]? = some r → Record.Legal s records n r) ∧
      ((∀ r ∈ records, r.tag = none) →
        (∀ n, Record.tagNumber s records n = n % s.size) ∧
          ((∃ program, Program.ofRecords s records = .ok program) ↔
            ∀ r ∈ records, (∃ o, r.opcode.Says o) ∧
              ∀ k m, r.operands.get k = some (.wait m) → m < s.size) ∧
          ∀ n tag previous,
            Program.ofRecords s records ≠ .error ⟨n, .duplicateTag tag previous⟩) ∧
      ∀ text, Json.Reader.document (Record.listShape.read []) text = .ok records →
        Program.ofText s text = (Program.ofRecords s records).mapError .record := by
  have hchecked := Program.checked_ofRecords s records
  have hok : (∃ program, Program.ofRecords s records = .ok program) ↔
      ∀ n r, records[n]? = some r → Record.Legal s records n r :=
    hchecked.exists_ok_iff.trans Record.firstError?_eq_none_iff
  refine ⟨hok, ?_, ?_, ?_, ?_⟩
  · exact fun program => Program.says_of_ofRecords
  · exact fun e he => Record.firstError?_eq_some (hchecked.eq_error he)
  · intro hnone
    refine ⟨Record.tagNumber_of_none hnone, hok.trans ⟨?_, ?_⟩, ?_⟩
    · intro hl r hr
      obtain ⟨n, hn⟩ := List.mem_iff_getElem?.1 hr
      exact (Record.legal_of_none hnone hn).1 (hl n r hn)
    · intro hl n r hr
      exact (Record.legal_of_none hnone hr).2 (hl r (List.mem_of_getElem? hr))
    · intro n tag previous he
      obtain ⟨⟨r, -, hfault⟩, -⟩ := Record.firstError?_eq_some (hchecked.eq_error he)
      have hreuse := Record.reuseFault?_of_duplicateTag hfault
      rw [Record.reuseFault?_eq_none_iff.2 fun m hm => Record.reuse_of_none hnone hm] at hreuse
      cases hreuse
  · intro text ht
    rw [Program.ofText, ht]

/-- With four tags, tag 0 may come back after two records, here by going round. When it comes back
once more at once, it is the second holder that is in the way. -/
theorem accepts_legal_records_wrapping :
    let s : TagSpace := ⟨2, by decide, by decide⟩
    let records : List Record :=
      [⟨.mnemonic "Sub", none, ⟨some (.value 5), none, some (.wait 3)⟩⟩,
        ⟨.word 0x06000001, some 3, ⟨none, some (.wait 0), none⟩⟩,
        ⟨.mnemonic "bcs", none, ⟨none, none, none⟩⟩]
    let again : Record := ⟨.word 0x06000000, some 0, ⟨none, none, none⟩⟩
    Program.ofRecords s records =
        .ok [⟨⟨0x07000000⟩, ⟨0⟩, ⟨⟨false, ⟨0⟩, 5⟩, ⟨false, ⟨0⟩, 0⟩, ⟨true, ⟨3⟩, 0⟩⟩⟩,
          ⟨⟨0x06000001⟩, ⟨3⟩, ⟨⟨false, ⟨0⟩, 0⟩, ⟨true, ⟨0⟩, 0⟩, ⟨false, ⟨0⟩, 0⟩⟩⟩,
          ⟨⟨0x0F000001⟩, ⟨0⟩, ⟨⟨false, ⟨0⟩, 0⟩, ⟨false, ⟨0⟩, 0⟩, ⟨false, ⟨0⟩, 0⟩⟩⟩] ∧
      (List.range 3).map (Record.tagNumber s records) = [0, 3, 0] ∧
      Program.ofRecords s (records ++ [again]) = .error ⟨3, .duplicateTag 0 2⟩ ∧
      again.firstFault? s (records ++ [again]) 3 = some (.duplicateTag 0 2) := by
  intro s records again
  have hok : Program.ofRecords s records =
      .ok [⟨⟨0x07000000⟩, ⟨0⟩, ⟨⟨false, ⟨0⟩, 5⟩, ⟨false, ⟨0⟩, 0⟩, ⟨true, ⟨3⟩, 0⟩⟩⟩,
        ⟨⟨0x06000001⟩, ⟨3⟩, ⟨⟨false, ⟨0⟩, 0⟩, ⟨true, ⟨0⟩, 0⟩, ⟨false, ⟨0⟩, 0⟩⟩⟩,
        ⟨⟨0x0F000001⟩, ⟨0⟩, ⟨⟨false, ⟨0⟩, 0⟩, ⟨false, ⟨0⟩, 0⟩, ⟨false, ⟨0⟩, 0⟩⟩⟩] := by
    decide +kernel
  have hrefused : Program.ofRecords s (records ++ [again]) = .error ⟨3, .duplicateTag 0 2⟩ := by
    decide +kernel
  obtain ⟨-, hread, -⟩ := accepts_legal_records s records
  obtain ⟨-, -, herror, -⟩ := accepts_legal_records s (records ++ [again])
  have hnumbers := (hread _ hok).2
  refine ⟨hok, ?_, hrefused, ?_⟩
  · have h0 := (hnumbers 0 _ _ rfl rfl).tag
    have h1 := (hnumbers 1 _ _ rfl rfl).tag
    have h2 := (hnumbers 2 _ _ rfl rfl).tag
    simp only [List.range_succ, List.range_zero, List.nil_append, List.cons_append, List.map_cons,
      List.map_nil, ← h0, ← h1, ← h2]
    rfl
  · obtain ⟨⟨r, hr, hfault⟩, -⟩ := herror _ hrefused
    obtain rfl : again = r := Option.some.inj hr
    exact hfault

end OutOfOrder
