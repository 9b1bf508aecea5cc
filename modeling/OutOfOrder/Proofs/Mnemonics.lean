import Mathlib
import OutOfOrder.Proofs.Encoding

/-!
# Mnemonics and the operations they name

Names are read by one list of cases and shown by another. Both agree with one table,
`Operation.named`: a name is read by looking it up there (`ofMnemonic?_eq_lookup`), and an operation
is shown by its name in the table (`mem_named_iff`), or else is a branch that is shown as `b`, which
nobody reads. All operations in the table have a word that stands for them, so what a name is read
as is also what comes back when its word is decoded and shown.
-/

namespace OutOfOrder

/-! ## Looking up -/

/-- Where no key comes twice, a key is found with what stands beside it. -/
theorem lookup_eq_some_iff_mem {α β : Type} [BEq α] [LawfulBEq α] {table : List (α × β)}
    (hd : (table.map (·.1)).Nodup) {k : α} {v : β} :
    table.lookup k = some v ↔ (k, v) ∈ table := by
  have hfound : ∀ {w}, table.lookup k = some w → (k, w) ∈ table := by
    intro w h
    obtain ⟨l1, l2, rfl, -⟩ := List.lookup_eq_some_iff.1 h
    exact List.mem_append_right l1 List.mem_cons_self
  constructor
  · exact hfound
  · intro h
    have hsome : (table.lookup k).isSome = true :=
      List.lookup_isSome_iff.2 ⟨(k, v), h, beq_self_eq_true k⟩
    obtain ⟨w, hw⟩ := Option.isSome_iff_exists.1 hsome
    have heq := List.inj_on_of_nodup_map hd (hfound hw) h rfl
    rw [hw, (Prod.mk.inj heq).2]

/-- To look a key up among things and their keys is to find the thing that has it. -/
theorem lookup_map_key {α β γ : Type} [BEq β] [LawfulBEq β] (key : α → β) (f : α → γ) (k : β)
    (l : List α) : (l.map fun x => (key x, f x)).lookup k = (l.find? (key · == k)).map f := by
  induction l with
  | nil => rfl
  | cons x l ih =>
    rw [List.map_cons, List.lookup_cons, List.find?_cons, BEq.comm]
    cases key x == k with
    | true => rfl
    | false => exact ih

/-! ## Names -/

namespace BranchCondition

/-- The conditions with names of their own. -/
def named : List (String × BranchCondition) :=
  [("br", always), ("bcs", ⟨carryFlag, false⟩), ("bcc", ⟨carryFlag, true⟩),
    ("bbs", ⟨borrowFlag, false⟩), ("bbc", ⟨borrowFlag, true⟩)]

/-- A condition is shown by its name, if it has one. -/
theorem mnemonic_cases (c : BranchCondition) :
    (c.mnemonic, c) ∈ named ∨ c ∉ named.map (·.2) ∧ c.mnemonic = "b" := by
  by_cases h : c ∈ named.map (·.2)
  · exact .inl ((by decide : ∀ c ∈ named.map (·.2), (c.mnemonic, c) ∈ named) c h)
  · refine .inr ⟨h, ?_⟩
    simp only [named, List.map_cons, List.map_nil, List.mem_cons, List.not_mem_nil, or_false,
      not_or] at h
    obtain ⟨h1, h2, h3, h4, h5⟩ := h
    rw [mnemonic, if_neg h1, if_neg h2, if_neg h3, if_neg h4, if_neg h5]

end BranchCondition

namespace Operation

/-- The operations with names of their own. -/
def named : List (String × Operation) :=
  (AluOp.all.map fun op => (op.mnemonic, alu op)) ++
    BranchCondition.named.map fun (name, c) => (name, branch c)

/-- The names in the table are small letters, each once, and `b` is not one of them. -/
theorem nodup_names : (named.map (·.1)).Nodup ∧ "b" ∉ named.map (·.1) := by decide

/-- An entry of the table is shown by its name, and no word has to narrow it. -/
theorem of_mem_named : ∀ p ∈ named, p.2.mnemonic = p.1 ∧ p.2.narrow = p.2 ∧ p.1.toLower = p.1 := by
  decide +kernel

theorem mnemonic_cases (op : Operation) :
    (op.mnemonic, op) ∈ named ∨
      ∃ c, op = .branch c ∧ c ∉ BranchCondition.named.map (·.2) ∧ op.mnemonic = "b" := by
  cases op with
  | alu op =>
    exact .inl (List.mem_append_left _ (List.mem_map_of_mem op.mem_all))
  | branch c =>
    rcases c.mnemonic_cases with h | ⟨h, hb⟩
    · exact .inl (List.mem_append_right _ (List.mem_map_of_mem h))
    · exact .inr ⟨c, rfl, h, hb⟩

theorem mem_named_iff {name : String} {op : Operation} :
    (name, op) ∈ named ↔ op.mnemonic = name ∧ name ≠ "b" := by
  constructor
  · intro h
    refine ⟨(of_mem_named _ h).1, ?_⟩
    rintro rfl
    exact nodup_names.2 (List.mem_map_of_mem h)
  · rintro ⟨rfl, hb⟩
    rcases op.mnemonic_cases with h | ⟨-, -, -, h⟩
    · exact h
    · exact absurd h hb

/-! ## Reading -/

/-- A name is read as what the table has beside it in small letters. -/
theorem ofMnemonic?_eq_lookup (s : String) : ofMnemonic? s = named.lookup s.toLower := by
  unfold ofMnemonic?
  generalize s.toLower = name
  dsimp only
  rw [named, List.lookup_append, lookup_map_key AluOp.mnemonic alu]
  cases AluOp.all.find? (·.mnemonic == name) with
  | some op => rfl
  | none =>
    dsimp only [Option.map_none, Option.none_or]
    split
    case h_6 h1 h2 h3 h4 h5 =>
      simp only [BranchCondition.named, List.map_cons, List.map_nil, List.lookup_cons,
        List.lookup_nil, beq_false_of_ne h1, beq_false_of_ne h2, beq_false_of_ne h3,
        beq_false_of_ne h4, beq_false_of_ne h5]
    all_goals rfl

theorem ofMnemonic?_eq_some_iff {s : String} {op : Operation} :
    ofMnemonic? s = some op ↔ (s.toLower, op) ∈ named := by
  rw [ofMnemonic?_eq_lookup]
  exact lookup_eq_some_iff_mem nodup_names.1

theorem isSome_ofMnemonic?_iff {s : String} :
    (ofMnemonic? s).isSome = true ↔ s.toLower ∈ named.map (·.1) := by
  rw [Option.isSome_iff_exists, List.mem_map]
  constructor
  · rintro ⟨op, h⟩
    exact ⟨_, ofMnemonic?_eq_some_iff.1 h, rfl⟩
  · rintro ⟨⟨name, op⟩, h, hname⟩
    exact ⟨op, ofMnemonic?_eq_some_iff.2 (hname ▸ h)⟩

theorem ofMnemonic?_mnemonic {op : Operation} (h : (op.mnemonic, op) ∈ named) :
    ofMnemonic? op.mnemonic = some op := by
  rw [ofMnemonic?_eq_some_iff, (of_mem_named _ h).2.2]
  exact h

theorem ofMnemonic?_b : ofMnemonic? "b" = none := by
  rw [← Option.not_isSome_iff_eq_none, isSome_ofMnemonic?_iff,
    show "b".toLower = "b" by decide +kernel]
  exact nodup_names.2

end Operation

/-- A text names an operation just when it is one of twelve names, with its letters from A to Z in
either case. The operation is shown by that name, no other operation is, and its word stands for
it. What a word stands for is read back from the name that it is shown by, unless this is `b`, the
common name of all branches whose condition is none of the five with names of their own. That name
is not read at all. -/
theorem mnemonics_name_operations :
    (∀ s : String, (Operation.ofMnemonic? s).isSome = true ↔
        s.toLower ∈ ["add", "sub", "and", "or", "nor", "not", "xor", "br", "bcs", "bcc", "bbs",
          "bbc"]) ∧
      (∀ (s : String) (op : Operation), Operation.ofMnemonic? s = some op ↔
        op.mnemonic = s.toLower ∧ s.toLower ≠ "b") ∧
      (∀ (s : String) (op : Operation), Operation.ofMnemonic? s = some op →
        (Opcode.encode op).decode = some op) ∧
      ∀ (o : Opcode) (op : Operation), o.decode = some op →
        Operation.ofMnemonic? op.mnemonic = some op ∨
          ∃ c : BranchCondition, op = .branch c ∧
            c ∉ [⟨0, true⟩, ⟨1, false⟩, ⟨1, true⟩, ⟨2, false⟩, ⟨2, true⟩] ∧
              op.mnemonic = "b" ∧ Operation.ofMnemonic? "b" = none := by
  refine ⟨fun s => Operation.isSome_ofMnemonic?_iff, fun s op => ?_, fun s op h => ?_,
    fun o op _ => ?_⟩
  · rw [Operation.ofMnemonic?_eq_some_iff, Operation.mem_named_iff]
  · have hmem := Operation.ofMnemonic?_eq_some_iff.1 h
    rw [Opcode.decode_encode, (Operation.of_mem_named _ hmem).2.1]
  · rcases op.mnemonic_cases with h | ⟨c, hop, hc, hb⟩
    · exact .inl (Operation.ofMnemonic?_mnemonic h)
    · exact .inr ⟨c, hop, hc, hb, Operation.ofMnemonic?_b⟩

/-- A name is read in mixed case, and the branch on both flags at once has none. -/
theorem mnemonics_name_operations_mixed_case :
    let carry : Operation := .branch ⟨1, false⟩
    let both : Operation := .branch ⟨3, false⟩
    Operation.ofMnemonic? "bCs" = some carry ∧ (Opcode.encode carry).decode = some carry ∧
      (⟨0x0F000003⟩ : Opcode).decode = some both ∧ both.mnemonic = "b" ∧
      Operation.ofMnemonic? both.mnemonic = none := by
  intro carry both
  obtain ⟨-, hread, hword, hshown⟩ := mnemonics_name_operations
  have hcarry : Operation.ofMnemonic? "bCs" = some carry :=
    (hread "bCs" carry).2 ⟨by decide +kernel, by decide +kernel⟩
  have hboth : (⟨0x0F000003⟩ : Opcode).decode = some both := by decide
  refine ⟨hcarry, hword "bCs" carry hcarry, hboth, ?_⟩
  rcases hshown ⟨0x0F000003⟩ both hboth with h | ⟨-, -, -, hb, hnone⟩
  · exact absurd h (by decide +kernel)
  · exact ⟨hb, hb ▸ hnone⟩

end OutOfOrder
