import Mathlib
import OutOfOrder.Proofs.Mnemonics

/-!
# What the arithmetic unit computes

The operands of an addition are read as unsigned numbers, those of a subtraction as signed ones.
With its carry the value of an addition holds the exact sum (`toNat_add_carry`). The borrow of a
subtraction is the sign of the exact difference, which the value itself has lost when the
difference does not fit a word (`sign_iff_fits`). Both flags are what a unit of twice the width
finds before it cuts its result to a word (`add_eq_wide`, `sub_eq_wide`). A branch that is named
for one of the flags therefore compares the operands.
-/

namespace OutOfOrder

/-! ## Branches on flags -/

/-- Whether a branch is taken on these flags. Other operations are no branches. -/
def Operation.taken? (flags : Int32) : Operation → Option Bool
  | alu _ => none
  | branch c => some (c.taken flags)

/-- A named branch on the very flag that stands for a condition. -/
theorem Operation.taken?_ite {name : String} {flag : Int32} {invert : Bool}
    (hname : ofMnemonic? name = some (.branch ⟨flag, invert⟩)) (hflag : flag ≠ 0) (p : Prop)
    [Decidable p] :
    (ofMnemonic? name).bind (taken? (if p then flag else 0)) = some (decide p != invert) := by
  rw [hname, Option.bind_some, taken?, BranchCondition.taken]
  by_cases hp : p
  · rw [if_pos hp, Int32.and_self, bne_iff_ne.2 hflag, decide_eq_true hp]
  · rw [if_neg hp, Int32.zero_and, bne_self_eq_false, decide_eq_false hp]

namespace Outcome

/-- The sum of two words, with the unsigned carry. -/
structure IsSum (o : Outcome) (a b : Int32) : Prop where
  value : o.value.toInt ≡ a.toInt + b.toInt [ZMOD 2 ^ 32]
  flags : o.flags = if 2 ^ 32 ≤ a.toUInt32.toNat + b.toUInt32.toNat then carryFlag else 0
  /-- Nothing of the sum is lost. -/
  whole : o.value.toUInt32.toNat + (if o.flags = carryFlag then 2 ^ 32 else 0) =
    a.toUInt32.toNat + b.toUInt32.toNat
  bcs : (Operation.ofMnemonic? "bcs").bind (Operation.taken? o.flags) =
    some (decide (2 ^ 32 ≤ a.toUInt32.toNat + b.toUInt32.toNat))
  bcc : (Operation.ofMnemonic? "bcc").bind (Operation.taken? o.flags) =
    some (decide (a.toUInt32.toNat + b.toUInt32.toNat < 2 ^ 32))

/-- The difference of two words, with the signed borrow. -/
structure IsDifference (o : Outcome) (a b : Int32) : Prop where
  value : o.value.toInt ≡ a.toInt - b.toInt [ZMOD 2 ^ 32]
  flags : o.flags = if a.toInt < b.toInt then borrowFlag else 0
  /-- Where the difference does not fit the word, the sign of the value is the wrong one. -/
  sign : (o.value.toInt < 0 ↔ a.toInt < b.toInt) ↔
    -2 ^ 31 ≤ a.toInt - b.toInt ∧ a.toInt - b.toInt < 2 ^ 31
  bbs : (Operation.ofMnemonic? "bbs").bind (Operation.taken? o.flags) =
    some (decide (a.toInt < b.toInt))
  bbc : (Operation.ofMnemonic? "bbc").bind (Operation.taken? o.flags) =
    some (decide (b.toInt ≤ a.toInt))

end Outcome

namespace AluOp

variable (a b : Int32)

/-! ## Addition -/

theorem flags_add : (add.execute a b).flags =
    if 2 ^ 32 ≤ a.toUInt32.toNat + b.toUInt32.toNat then carryFlag else 0 := rfl

theorem carry_iff :
    (add.execute a b).flags = carryFlag ↔ 2 ^ 32 ≤ a.toUInt32.toNat + b.toUInt32.toNat := by
  rw [flags_add]
  split
  · next h => exact iff_of_true rfl h
  · next h => exact iff_of_false (show 0 ≠ carryFlag by decide) h

/-- The carry stands for what does not go into the word. -/
theorem toNat_add_carry :
    (add.execute a b).value.toUInt32.toNat +
        (if (add.execute a b).flags = carryFlag then 2 ^ 32 else 0) =
      a.toUInt32.toNat + b.toUInt32.toNat := by
  have ha : a.toUInt32.toNat < 2 ^ 32 := a.toUInt32.toNat_lt
  have hb : b.toUInt32.toNat < 2 ^ 32 := b.toUInt32.toNat_lt
  have hvalue : (add.execute a b).value.toUInt32.toNat =
      (a.toUInt32.toNat + b.toUInt32.toNat) % 2 ^ 32 := by
    rw [execute, Int32.toUInt32_add, UInt32.toNat_add]
  rw [hvalue]
  by_cases h : 2 ^ 32 ≤ a.toUInt32.toNat + b.toUInt32.toNat
  · rw [if_pos ((carry_iff a b).2 h)]
    omega
  · rw [if_neg (mt (carry_iff a b).1 h)]
    omega

theorem isSum_add : (add.execute a b).IsSum a b where
  value := by
    rw [execute, Int32.toInt_add]
    exact Int.bmod_emod
  flags := flags_add a b
  whole := toNat_add_carry a b
  bcs := by
    have hname : Operation.ofMnemonic? "bcs" = some (.branch ⟨carryFlag, false⟩) := by
      decide +kernel
    rw [flags_add, Operation.taken?_ite hname (by decide), Bool.bne_false]
  bcc := by
    have hname : Operation.ofMnemonic? "bcc" = some (.branch ⟨carryFlag, true⟩) := by
      decide +kernel
    rw [flags_add, Operation.taken?_ite hname (by decide), Bool.bne_true, ← decide_not]
    simp only [not_le]

theorem add_eq_wide :
    let wide := a.toUInt32.toUInt64 + b.toUInt32.toUInt64
    add.execute a b = ⟨wide.toUInt32.toInt32, if 0xFFFFFFFF < wide then carryFlag else 0⟩ := by
  intro wide
  have ha : a.toUInt32.toNat < 2 ^ 32 := a.toUInt32.toNat_lt
  have hb : b.toUInt32.toNat < 2 ^ 32 := b.toUInt32.toNat_lt
  have hvalue : wide.toUInt32.toInt32 = a + b := by
    simp [wide]
  have hcarry : 0xFFFFFFFF < wide ↔ UInt32.size ≤ a.toUInt32.toNat + b.toUInt32.toNat := by
    -- no sum of two words goes beyond a double word
    rw [UInt64.lt_iff_toNat_lt, UInt64.toNat_add, UInt32.toNat_toUInt64, UInt32.toNat_toUInt64,
      Nat.mod_eq_of_lt (by omega)]
    exact Iff.rfl
  rw [hvalue, execute]
  simp only [hcarry]

/-! ## Subtraction -/

theorem sub_eq_wide :
    let wide := a.toInt64 - b.toInt64
    sub.execute a b = ⟨wide.toInt32, if wide < 0 then borrowFlag else 0⟩ := by
  intro wide
  have ha := a.le_toInt
  have ha' := a.toInt_lt
  have hb := b.le_toInt
  have hb' := b.toInt_lt
  have hvalue : wide.toInt32 = a - b := by
    simp [wide]
  have hborrow : wide < 0 ↔ a.toInt < b.toInt := by
    rw [Int64.lt_iff_toInt_lt, Int64.toInt_sub, Int32.toInt_toInt64, Int32.toInt_toInt64,
      Int.bmod_eq_of_le (by omega) (by omega), Int64.toInt_zero]
    exact sub_neg
  rw [hvalue, execute]
  simp only [hborrow]

theorem sign_iff_fits :
    ((sub.execute a b).value.toInt < 0 ↔ a.toInt < b.toInt) ↔
      -2 ^ 31 ≤ a.toInt - b.toInt ∧ a.toInt - b.toInt < 2 ^ 31 := by
  have ha := a.le_toInt
  have ha' := a.toInt_lt
  have hb := b.le_toInt
  have hb' := b.toInt_lt
  rw [execute, Int32.toInt_sub, Int.bmod_def]
  split <;> omega

theorem flags_sub :
    (sub.execute a b).flags = if a.toInt < b.toInt then borrowFlag else 0 := rfl

theorem isDifference_sub : (sub.execute a b).IsDifference a b where
  value := by
    rw [execute, Int32.toInt_sub]
    exact Int.bmod_emod
  flags := flags_sub a b
  sign := sign_iff_fits a b
  bbs := by
    have hname : Operation.ofMnemonic? "bbs" = some (.branch ⟨borrowFlag, false⟩) := by
      decide +kernel
    rw [flags_sub, Operation.taken?_ite hname (by decide), Bool.bne_false]
  bbc := by
    have hname : Operation.ofMnemonic? "bbc" = some (.branch ⟨borrowFlag, true⟩) := by
      decide +kernel
    rw [flags_sub, Operation.taken?_ite hname (by decide), Bool.bne_true, ← decide_not]
    simp only [not_lt]

/-! ## Logic -/

/-- What a logical operation does to each pair of bits. -/
def bitwise? : AluOp → Option (Bool → Bool → Bool)
  | add | sub => none
  | and => some fun x y => x && y
  | or => some fun x y => x || y
  | nor => some fun x y => !(x || y)
  | not => some fun x _ => !x
  | xor => some fun x y => x != y

theorem bits_execute {op : AluOp} {f : Bool → Bool → Bool} (h : op.bitwise? = some f) (i : Fin 32) :
    (op.execute a b).value.toBitVec[i] = f a.toBitVec[i] b.toBitVec[i] := by
  cases op with
  | add | sub => cases h
  | and | or | nor | not | xor =>
    cases h
    simp [execute]

theorem flags_of_bitwise {op : AluOp} {f : Bool → Bool → Bool} (h : op.bitwise? = some f) :
    (op.execute a b).flags = 0 := by
  cases op with
  | add | sub => cases h
  | and | or | nor | not | xor => rfl

end AluOp

/-- Sums and differences are those of the integers up to laps of 32 bits. The flag of a sum is the
unsigned carry out of the word, and that of a difference tells which operand is the lesser, also
where the sign of the value does not; they are the flags that a unit of 64 bits finds. Logic works
bit by bit and leaves no flags, and `not` does not look at its second operand. So the branches that
are named for the flags compare the operands, and subtracting what was added restores what was
there. -/
theorem results_match_integers (a b : Int32) :
    (AluOp.add.execute a b).IsSum a b ∧ (AluOp.sub.execute a b).IsDifference a b ∧
      (let wide := a.toUInt32.toUInt64 + b.toUInt32.toUInt64
       AluOp.add.execute a b =
         ⟨wide.toUInt32.toInt32, if 0xFFFFFFFF < wide then carryFlag else 0⟩) ∧
      (let wide := a.toInt64 - b.toInt64
       AluOp.sub.execute a b = ⟨wide.toInt32, if wide < 0 then borrowFlag else 0⟩) ∧
      (∀ (op : AluOp) (f : Bool → Bool → Bool), op.bitwise? = some f →
        (op.execute a b).flags = 0 ∧
          ∀ i : Fin 32, (op.execute a b).value.toBitVec[i] = f a.toBitVec[i] b.toBitVec[i]) ∧
      (∀ b' : Int32, AluOp.not.execute a b' = AluOp.not.execute a b) ∧
      (AluOp.sub.execute (AluOp.add.execute a b).value b).value = a := by
  refine ⟨AluOp.isSum_add a b, AluOp.isDifference_sub a b, AluOp.add_eq_wide a b,
    AluOp.sub_eq_wide a b, fun op f h => ?_, fun b' => rfl, Int32.add_sub_cancel a b⟩
  exact ⟨AluOp.flags_of_bitwise a b h, AluOp.bits_execute a b h⟩

/-- One less than the least word is the greatest, with a borrow as the least word is the lesser
operand. -/
theorem results_match_integers_overflow :
    let difference := AluOp.sub.execute Int32.minValue 1
    difference = ⟨Int32.maxValue, borrowFlag⟩ ∧
      (Operation.ofMnemonic? "bbs").bind (Operation.taken? difference.flags) = some true ∧
      (AluOp.nor.execute Int32.minValue 1).flags = 0 ∧
      ∀ i : Fin 32, (AluOp.nor.execute Int32.minValue 1).value.toBitVec[i] =
        !(Int32.minValue.toBitVec[i] || (1 : Int32).toBitVec[i]) := by
  intro difference
  obtain ⟨-, hdifference, -, -, hlogic, -⟩ := results_match_integers Int32.minValue 1
  obtain ⟨hnor, hbits⟩ := hlogic .nor _ rfl
  exact ⟨by decide, hdifference.bbs.trans (by decide), hnor, hbits⟩

end OutOfOrder
