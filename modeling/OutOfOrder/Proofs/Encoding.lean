import Mathlib
import OutOfOrder.Proofs.Phases

/-!
# Opcode words and the operations they stand for

Of an opcode word only two fields count: the class byte, and in a branch word the nine bits of the
condition. Decoding tells words apart by these alone (`decode_eq_alu_iff`, `decode_eq_branch_iff`,
`condition_inj`). Encoding fills them in and leaves all other bits empty (`encode_branch_and`), so
it gives back every operation that some word stands for. From a branch whose mask does not fit its
byte it drops the rest of the mask (`decode_encode`). Only flags above the low byte could tell
(`taken_narrow_iff`), and no execution unit leaves any there (`flags_outcome`).
-/

namespace OutOfOrder

/-! ## What a word can hold -/

/-- The condition as far as an opcode word holds it: with the low byte of its mask. -/
def BranchCondition.narrow (c : BranchCondition) : BranchCondition := ⟨c.mask &&& 0xFF, c.invert⟩

def Operation.narrow : Operation → Operation
  | alu op => alu op
  | branch c => branch c.narrow

namespace Opcode

/-- The top byte of the word. -/
def classByte (o : Opcode) : ℕ := o.word.toNat / 2 ^ 24

/-- The low nine bits of the word. -/
def conditionBits (o : Opcode) : ℕ := o.word.toNat % 2 ^ 9

/-! ## The fields of a word -/

theorem toNat_classWord (o : Opcode) : o.classWord.toNat = o.classByte * 2 ^ 24 := by
  have hlt : o.word.toNat < 2 ^ 32 := o.word.toNat_lt
  rw [classWord, UInt32.toNat_and, classByte, show classMask.toNat = (2 ^ 8 - 1) * 2 ^ 24 from rfl]
  apply Nat.eq_of_testBit_eq
  intro i
  rw [Nat.testBit_and, Nat.testBit_mul_two_pow, Nat.testBit_mul_two_pow,
    Nat.testBit_two_pow_sub_one, Nat.testBit_div_two_pow]
  by_cases hi : 24 ≤ i
  · rw [Nat.sub_add_cancel hi]
    by_cases hi' : i < 32
    · simp [hi, show i - 24 < 8 by omega]
    · -- no word has a bit there
      rw [Nat.testBit_lt_two_pow (hlt.trans_le (Nat.pow_le_pow_right (by decide) (by omega)))]
      simp
  · simp [hi]

theorem classWord_inj {o o' : Opcode} :
    o.classWord = o'.classWord ↔ o.classByte = o'.classByte := by
  rw [← UInt32.toNat_inj, toNat_classWord, toNat_classWord]
  omega

theorem toNat_mask (o : Opcode) : o.condition.mask.toUInt32.toNat = o.conditionBits % 2 ^ 8 := by
  have hmask : (o.word &&& branchMask).toNat = o.word.toNat % 2 ^ 8 := by
    rw [UInt32.toNat_and]
    exact Nat.and_two_pow_sub_one_eq_mod _ 8
  rw [condition, UInt32.toUInt32_toInt32, hmask, conditionBits]
  omega

theorem invert_iff (o : Opcode) : o.condition.invert = true ↔ 2 ^ 8 ≤ o.conditionBits := by
  have hbit : (o.word &&& branchInvert).toNat = (o.word.toNat.testBit 8).toNat * 2 ^ 8 := by
    rw [UInt32.toNat_and]
    exact Nat.and_two_pow _ 8
  rw [condition, bne_iff_ne, ne_eq, ← UInt32.toNat_inj, hbit, Nat.testBit_eq_decide_div_mod_eq,
    conditionBits]
  by_cases h : o.word.toNat / 2 ^ 8 % 2 = 1
  · rw [decide_eq_true h]
    exact iff_of_true (by decide) (by omega)
  · rw [decide_eq_false h]
    exact iff_of_false (by decide) (by omega)

theorem condition_inj {o o' : Opcode} :
    o.condition = o'.condition ↔ o.conditionBits = o'.conditionBits := by
  have hmask := o.toNat_mask
  have hmask' := o'.toNat_mask
  have hinvert := o.invert_iff
  have hinvert' := o'.invert_iff
  constructor
  · intro h
    have hlt : o.conditionBits < 2 ^ 9 := Nat.mod_lt _ (by decide)
    have hlt' : o'.conditionBits < 2 ^ 9 := Nat.mod_lt _ (by decide)
    rw [h] at hmask hinvert
    -- equal in the low byte, and both below the ninth bit or neither
    have hhalf := hinvert.symm.trans hinvert'
    omega
  · intro h
    rw [h, ← hmask', UInt32.toNat_inj] at hmask
    rw [h, ← hinvert', ← Bool.eq_iff_iff] at hinvert
    have hmask : o.condition.mask = o'.condition.mask := by
      rw [← Int32.toInt32_toUInt32 o.condition.mask, hmask, Int32.toInt32_toUInt32]
    exact congrArg₂ BranchCondition.mk hmask hinvert

theorem or_and (x y k : UInt32) : (x ||| y) &&& k = x &&& k ||| y &&& k :=
  UInt32.toBitVec_inj.1 BitVec.and_or_distrib_right

/-- What a field of the word of a branch has in it. -/
theorem encode_branch_and (c : BranchCondition) (field : UInt32) :
    (encode (.branch c)).word &&& field =
      branchClass &&& field ||| c.mask.toUInt32 &&& (branchMask &&& field) |||
        if c.invert then branchInvert &&& field else 0 := by
  rw [encode, or_and, or_and, UInt32.and_assoc]
  cases c.invert with
  | false => exact congrArg _ UInt32.zero_and
  | true => rfl

theorem classWord_encode_branch (c : BranchCondition) :
    (encode (.branch c)).classWord = branchClass := by
  rw [classWord, encode_branch_and, show branchMask &&& classMask = 0 from rfl, UInt32.and_zero]
  cases c.invert <;> rfl

theorem condition_encode (c : BranchCondition) : (encode (.branch c)).condition = c.narrow := by
  have hmask : (encode (.branch c)).word &&& branchMask = c.mask.toUInt32 &&& branchMask := by
    rw [encode_branch_and, UInt32.and_self, show branchClass &&& branchMask = 0 from rfl,
      show branchInvert &&& branchMask = 0 from rfl, ite_self, UInt32.or_zero, UInt32.zero_or]
  have hinvert : (encode (.branch c)).word &&& branchInvert =
      if c.invert then branchInvert else 0 := by
    rw [encode_branch_and, UInt32.and_self, show branchMask &&& branchInvert = 0 from rfl,
      UInt32.and_zero]
    exact UInt32.zero_or
  rw [condition, hmask, hinvert, UInt32.toInt32_and, Int32.toInt32_toUInt32,
    BranchCondition.narrow]
  cases c.invert <;> rfl

/-! ## Decoding -/

theorem classWord_alu_inj {op op' : AluOp} : op.classWord = op'.classWord ↔ op = op' := by
  cases op <;> cases op' <;> decide

theorem classWord_alu_ne (op : AluOp) : op.classWord ≠ branchClass := by
  cases op <;> decide

theorem find?_classWord {w : UInt32} {op : AluOp} :
    AluOp.all.find? (·.classWord == w) = some op ↔ op.classWord = w := by
  have hfound : ∀ {op'}, AluOp.all.find? (·.classWord == w) = some op' → op'.classWord = w := by
    intro op' h
    simpa using List.find?_some h
  constructor
  · exact hfound
  · intro h
    have hsome : (AluOp.all.find? (·.classWord == w)).isSome = true :=
      List.find?_isSome.2 ⟨op, op.mem_all, beq_iff_eq.2 h⟩
    obtain ⟨op', hop'⟩ := Option.isSome_iff_exists.1 hsome
    rw [hop', classWord_alu_inj.1 ((hfound hop').trans h.symm)]

theorem decode_eq_alu_iff {o : Opcode} {op : AluOp} :
    o.decode = some (.alu op) ↔ o.classWord = op.classWord := by
  rw [decode]
  split
  · next h => simp [h, (classWord_alu_ne op).symm]
  · rw [Option.map_eq_some_iff]
    constructor
    · rintro ⟨op', hop', h⟩
      rw [← Operation.alu.inj h]
      exact (find?_classWord.1 hop').symm
    · intro h
      exact ⟨op, find?_classWord.2 h.symm, rfl⟩

theorem decode_eq_branch_iff {o : Opcode} {c : BranchCondition} :
    o.decode = some (.branch c) ↔ o.classWord = branchClass ∧ o.condition = c := by
  rw [decode]
  split
  · next h => simp [h]
  · next h => simp [h]

theorem classWord_encode_alu (op : AluOp) : (encode (.alu op)).classWord = op.classWord := by
  cases op <;> rfl

theorem decode_encode (op : Operation) : (encode op).decode = some op.narrow := by
  cases op with
  | alu op => exact decode_eq_alu_iff.2 (classWord_encode_alu op)
  | branch c => exact decode_eq_branch_iff.2 ⟨classWord_encode_branch c, condition_encode c⟩

theorem narrow_condition (o : Opcode) : o.condition.narrow = o.condition := by
  rw [BranchCondition.narrow, condition, show (0xFF : Int32) = branchMask.toInt32 from rfl,
    ← UInt32.toInt32_and, UInt32.and_assoc, UInt32.and_self]

/-- What a word stands for is all in the word. -/
theorem narrow_of_decode {o : Opcode} {op : Operation} (h : o.decode = some op) :
    op.narrow = op := by
  cases op with
  | alu op => rfl
  | branch c =>
    obtain ⟨-, rfl⟩ := decode_eq_branch_iff.1 h
    exact congrArg Operation.branch o.narrow_condition

theorem decode_inj {o o' : Opcode} {op op' : Operation} (h : o.decode = some op)
    (h' : o'.decode = some op') :
    op = op' ↔ o.classByte = o'.classByte ∧
      ((∃ c, op = .branch c) → o.conditionBits = o'.conditionBits) := by
  rw [← classWord_inj, ← condition_inj]
  -- where one word is a branch and the other is not, the class bytes differ already
  cases op with
  | alu op =>
    rw [decode_eq_alu_iff.1 h]
    cases op' with
    | alu op' =>
      rw [decode_eq_alu_iff.1 h', classWord_alu_inj]
      simp
    | branch c' =>
      rw [(decode_eq_branch_iff.1 h').1]
      simp [classWord_alu_ne]
  | branch c =>
    obtain ⟨hclass, rfl⟩ := decode_eq_branch_iff.1 h
    rw [hclass]
    cases op' with
    | alu op' =>
      rw [decode_eq_alu_iff.1 h']
      simp [(classWord_alu_ne op').symm]
    | branch c' =>
      obtain ⟨hclass', rfl⟩ := decode_eq_branch_iff.1 h'
      simp [hclass']

end Opcode

/-! ## Flags that can tell -/

/-- The low byte of a mask decides as the mask does exactly where all flags are in that byte. -/
theorem taken_narrow_iff (flags : Int32) :
    (∀ c : BranchCondition, c.narrow.taken flags = c.taken flags) ↔ flags &&& 0xFF = flags := by
  constructor
  · intro h
    -- a mask of all the other bits is empty once it is narrow
    have hhigh : flags &&& ~~~0xFF = 0 := by
      have := h ⟨~~~0xFF, false⟩
      rw [BranchCondition.taken, BranchCondition.taken, BranchCondition.narrow,
        show (~~~0xFF &&& 0xFF : Int32) = 0 from rfl, Int32.and_zero] at this
      simpa using this.symm
    calc flags &&& 0xFF
        = flags &&& 0xFF ||| flags &&& ~~~0xFF := by rw [hhigh, Int32.or_zero]
      _ = flags &&& (0xFF ||| ~~~0xFF) := (Int32.toBitVec_inj.1 BitVec.and_or_distrib_left).symm
      _ = flags := Int32.and_neg_one
  · intro h c
    have hmask : flags &&& (c.mask &&& 0xFF) = flags &&& c.mask := by
      rw [Int32.and_comm c.mask, ← Int32.and_assoc, h]
    rw [BranchCondition.taken, BranchCondition.taken, BranchCondition.narrow, hmask]

/-- A ninth flag would tell. -/
example : BranchCondition.taken ⟨0x100, false⟩ 0x100 = true ∧
    (BranchCondition.narrow ⟨0x100, false⟩).taken 0x100 = false := by decide

theorem AluOp.flags_execute (op : AluOp) (a b : Int32) :
    (op.execute a b).flags = 0 ∨ (op.execute a b).flags = carryFlag ∨
      (op.execute a b).flags = borrowFlag := by
  cases op with
  | add =>
    rw [execute]
    split
    · exact .inr (.inl rfl)
    · exact .inl rfl
  | sub =>
    rw [execute]
    split
    · exact .inr (.inr rfl)
    · exact .inl rfl
  | and | or | nor | not | xor => exact .inl rfl

/-- No unit leaves flags above the low byte. -/
theorem Operation.flags_outcome (op : Operation) (x : Operands Int32) :
    (op.outcome x).flags &&& 0xFF = (op.outcome x).flags := by
  cases op with
  | alu op =>
    rw [outcome]
    rcases op.flags_execute x.a x.b with h | h | h
    · rw [h, Int32.zero_and]
    · rw [h, carryFlag]
      decide
    · rw [h, borrowFlag]
      decide
  | branch c => exact Int32.zero_and

/-- Encoding and decoding are inverse to each other, as far as words tell operations apart: by the
class byte, and a branch by its nine low bits as well. Every operation has a word, which stands for
the operation itself unless this is a branch with a mask wider than a byte. Then the word keeps the
low byte, and on all flags that an execution unit can leave the branch goes the same way. -/
theorem encoding_agrees_with_decoding :
    (∀ (o : Opcode) (op : Operation), o.decode = some op →
        (Opcode.encode op).decode = some op) ∧
      (∀ (o o' : Opcode) (op op' : Operation), o.decode = some op → o'.decode = some op' →
        (op = op' ↔ o.classByte = o'.classByte ∧
          ((∃ c, op = .branch c) → o.conditionBits = o'.conditionBits))) ∧
      (∀ op : AluOp, (Opcode.encode (.alu op)).decode = some (.alu op)) ∧
      ∀ c : BranchCondition,
        (Opcode.encode (.branch c)).decode = some (.branch ⟨c.mask &&& 0xFF, c.invert⟩) ∧
          ∀ (core : Core) (op : Operation) (r : Request),
            let flags := (core.execute op r).answer.flags
            BranchCondition.taken ⟨c.mask &&& 0xFF, c.invert⟩ flags = c.taken flags := by
  refine ⟨fun o op h => ?_, fun o o' op op' h h' => Opcode.decode_inj h h',
    fun op => Opcode.decode_encode (.alu op), fun c => ⟨Opcode.decode_encode (.branch c), ?_⟩⟩
  · rw [Opcode.decode_encode, Opcode.narrow_of_decode h]
  · intro core op r flags
    have hflags : flags &&& 0xFF = flags := by
      rw [show flags = (op.outcome r.operands).flags by rw [← core.execute_answer op r]]
      exact op.flags_outcome r.operands
    exact (taken_narrow_iff flags).2 hflags c

/-- Two words for one branch differ where nobody looks. The first has bits that do not count, the
second is that of a negative mask which ends in the same byte. -/
theorem encoding_agrees_negative_mask :
    let c : BranchCondition := ⟨-255, true⟩
    let o : Opcode := ⟨0x0FAB0301⟩
    o.decode = some (.branch ⟨1, true⟩) ∧ (Opcode.encode (.branch c)).word = 0x0F000101 ∧
      (Opcode.encode (.branch c)).decode = some (.branch ⟨1, true⟩) ∧
      (Opcode.encode (.branch ⟨1, true⟩)).decode = some (.branch ⟨1, true⟩) ∧
      o.classByte = (Opcode.encode (.branch c)).classByte ∧
      o.conditionBits = (Opcode.encode (.branch c)).conditionBits := by
  intro c o
  obtain ⟨hround, hfields, -, hbranch⟩ := encoding_agrees_with_decoding
  have ho : o.decode = some (.branch ⟨1, true⟩) := by decide
  have hc : (Opcode.encode (.branch c)).decode = some (.branch ⟨1, true⟩) :=
    (hbranch c).1.trans (by decide)
  obtain ⟨hclass, hbits⟩ := (hfields o _ _ _ ho hc).1 rfl
  exact ⟨ho, by decide, hc, hround o _ ho, hclass, hbits ⟨_, rfl⟩⟩

end OutOfOrder
