import Mathlib
import OutOfOrder.Disassembly
import OutOfOrder.Proofs.Mnemonics
import OutOfOrder.Proofs.Words

/-!
# Reading a line of disassembly

A line tells the tag, the operation as far as its mnemonic goes, and the operands that it shows. The
words of a line come first: no blank is in any of them, so equal lines have equal words
(`Instruction.text_inj`, `Request.text_inj`). An instruction names its operation in the first word,
and two operations with one name are shown alike (`operandWords_congr`). A request has a formula in
the place of a name, and the signs of the formula give the name back (`nameOf_formula`). The rest
is that each operand can be told from its word (`Operand.text_inj`): a numeral has no letters, and
no sign but the minus, so it is not taken for a waiting operand or for the start of a negation.
-/

namespace OutOfOrder

open Text

/-! ## Tags and opcode words -/

theorem Tag.text_eq (t : Tag) : t.text = "[" ++ (t.index : ℤ).repr ++ "]" := rfl

theorem Tag.text_inj {s t : Tag} : s.text = t.text ↔ s = t := by
  rw [text_eq, text_eq, String.append_left_inj, String.append_right_inj, Int.repr_inj, Nat.cast_inj,
    index_inj]

@[simp] theorem Tag.isWord_text (t : Tag) : IsWord t.text := by
  rw [text_eq, isWord_append, isWord_append]
  exact ⟨⟨by decide, isWord_repr t.index⟩, by decide⟩

theorem Opcode.text_inj {o o' : Opcode} : o.text = o'.text ↔ o = o' := by
  cases o
  cases o'
  rw [text, text, hex_inj, UInt32.toNat_inj, mk.injEq]

@[simp] theorem Opcode.isWord_text (o : Opcode) : IsWord o.text := isWord_hex 8 o.word.toNat

/-! ## Operands -/

namespace Operand

/-- The tag that a slot waits on, if it waits. -/
def awaited? (o : Operand) : Option Tag := if o.waiting then some o.tag else none

/-- Both wait on one tag, or both hold one value. -/
def Agrees (x y : Operand) : Prop :=
  x.waiting = true ∧ y.waiting = true ∧ x.tag = y.tag ∨
    x.waiting = false ∧ y.waiting = false ∧ x.value = y.value

/-- What is said of flags that are not read. -/
def pendingWords (o : Operand) : List String := if o.waiting then ["?", o.text] else []

variable {x y : Operand}

theorem text_of_waiting (h : x.waiting = true) : x.text = "wait" ++ x.tag.text := by
  rw [text, if_pos h]

theorem text_of_resolved (h : x.waiting = false) : x.text = x.value.toInt.repr := by
  rw [text, h, if_neg Bool.false_ne_true]
  rfl

@[simp] theorem isWord_text (x : Operand) : IsWord x.text := by
  cases h : x.waiting with
  | true =>
    rw [text_of_waiting h, isWord_append]
    exact ⟨by decide, x.tag.isWord_text⟩
  | false =>
    rw [text_of_resolved h]
    exact isWord_repr x.value.toInt

theorem text_ne (hx : x.waiting = true) (hy : y.waiting = false) : x.text ≠ y.text := by
  intro h
  have hletter : 'w' ∈ y.text.toList := by
    rw [← h, text_of_waiting hx]
    simp
  rw [text_of_resolved hy] at hletter
  exact not_mem_repr (by decide) (by decide) hletter

theorem text_inj : x.text = y.text ↔ x.Agrees y := by
  unfold Agrees
  cases hx : x.waiting with
  | true =>
    cases hy : y.waiting with
    | true =>
      rw [text_of_waiting hx, text_of_waiting hy, String.append_right_inj, Tag.text_inj]
      simp
    | false => simp [text_ne hx hy]
  | false =>
    cases hy : y.waiting with
    | true => simp [(text_ne hy hx).symm]
    | false =>
      rw [text_of_resolved hx, text_of_resolved hy, Int.repr_inj, Int32.toInt_inj]
      simp

theorem isWord_pendingWords (x : Operand) : ∀ w ∈ x.pendingWords, IsWord w := by
  unfold pendingWords
  split
  · simp +decide
  · simp

theorem pendingWords_inj : x.pendingWords = y.pendingWords ↔ x.awaited? = y.awaited? := by
  unfold pendingWords awaited?
  cases hx : x.waiting with
  | true =>
    cases hy : y.waiting with
    | true => simp [text_inj, Agrees, hx, hy]
    | false => simp
  | false => cases hy : y.waiting <;> simp

end Operand

/-! ## Names -/

namespace Operation

theorem mnemonic_mem (op : Operation) : op.mnemonic ∈ "b" :: named.map (·.1) := by
  rcases op.mnemonic_cases with h | ⟨-, -, -, h⟩
  · exact List.mem_cons_of_mem _ (List.mem_map_of_mem h)
  · exact h ▸ List.mem_cons_self

@[simp] theorem isWord_mnemonic (op : Operation) : IsWord op.mnemonic :=
  (by decide : ∀ name ∈ "b" :: named.map (·.1), IsWord name) _ op.mnemonic_mem

theorem mnemonic_ne_unknown (op : Operation) : op.mnemonic ≠ "unknown" :=
  (by decide : ∀ name ∈ "b" :: named.map (·.1), name ≠ "unknown") _ op.mnemonic_mem

/-- Only branches share a name. -/
theorem eq_of_mnemonic_eq {op op' : Operation} (h : op.mnemonic = op'.mnemonic) :
    op = op' ∨ ∃ c c', op = branch c ∧ op' = branch c' := by
  by_cases hb : op.mnemonic = "b"
  · rcases op.mnemonic_cases with hop | ⟨c, hc, -, -⟩
    · exact absurd hb (mem_named_iff.1 hop).2
    · rcases op'.mnemonic_cases with hop' | ⟨c', hc', -, -⟩
      · exact absurd (h ▸ hb) (mem_named_iff.1 hop').2
      · exact .inr ⟨c, c', hc, hc'⟩
  · have hop : (op.mnemonic, op) ∈ named := mem_named_iff.2 ⟨rfl, hb⟩
    have hop' : (op.mnemonic, op') ∈ named := mem_named_iff.2 ⟨h.symm, hb⟩
    exact .inl (Prod.mk.inj (List.inj_on_of_nodup_map nodup_names.1 hop hop' rfl)).2

/-- The inputs whose operands are shown. -/
def shown : Operation → List Input
  | alu .not => [.a]
  | alu _ => [.a, .b]
  | branch _ => [.f]

/-! ## The operands of an instruction -/

/-- The words after the tag. -/
def operandWords (op : Operation) (x : Operands Operand) : List String :=
  match op with
  | alu .not => ["<-", x.a.text] ++ x.f.pendingWords
  | alu _ => ["<-", x.a.text ++ ",", x.b.text] ++ x.f.pendingWords
  | branch _ => ["?", x.f.text]

theorem isWord_operandWords (op : Operation) (x : Operands Operand) :
    ∀ w ∈ op.operandWords x, IsWord w := by
  cases op with
  | alu o =>
    have hshown {l : List String} (hl : ∀ w ∈ l, IsWord w) :
        ∀ w ∈ l ++ x.f.pendingWords, IsWord w :=
      List.forall_mem_append.2 ⟨hl, x.f.isWord_pendingWords⟩
    cases o with
    | add | sub | and | or | nor | not | xor => exact hshown (by simp +decide)
  | branch c => simp +decide [operandWords]

theorem operandWords_congr {op op' : Operation} (h : op.mnemonic = op'.mnemonic)
    (x : Operands Operand) : op.operandWords x = op'.operandWords x := by
  rcases eq_of_mnemonic_eq h with rfl | ⟨c, c', rfl, rfl⟩
  · rfl
  · rfl

theorem operandWords_inj {op : Operation} {x y : Operands Operand} :
    op.operandWords x = op.operandWords y ↔
      (∀ k ∈ op.shown, (x.get k).Agrees (y.get k)) ∧
        ((∃ o, op = alu o) → x.f.awaited? = y.f.awaited?) := by
  cases op with
  | alu o =>
    cases o with
    | not => simp [operandWords, shown, Operands.get, Operand.text_inj, Operand.pendingWords_inj]
    | add | sub | and | or | nor | xor =>
      simp [operandWords, shown, Operands.get, Operand.text_inj, Operand.pendingWords_inj,
        and_assoc]
  | branch c => simp [operandWords, shown, Operands.get, Operand.text_inj]

/-! ## The formula of a request -/

/-- The words after the arrow. -/
def formula (op : Operation) (x : Operands Int32) : List String :=
  let a := toString x.a.toInt
  let b := toString x.b.toInt
  match op with
  | alu .not => ["~" ++ a]
  | alu .nor => ["~(" ++ a, "|", b ++ ")"]
  | alu o => [a, o.symbol, b]
  | branch c => [c.mnemonic, "flags=" ++ hex 1 x.f.toUInt32.toNat]

/-- The name of what a formula is about, read off its signs. -/
def nameOf : List String → String
  | [_] => AluOp.not.mnemonic
  | [name, _] => name
  | [x, sign, _] =>
    if '~' ∈ x.toList then AluOp.nor.mnemonic
    else ((AluOp.all.find? (·.symbol == sign)).map AluOp.mnemonic).getD ""
  | _ => ""

theorem nameOf_infix (z : ℤ) (o : AluOp) (b : String) :
    nameOf [z.repr, o.symbol, b] = o.mnemonic := by
  have hsign : '~' ∉ z.repr.toList := not_mem_repr (by decide) (by decide)
  rw [nameOf, if_neg hsign]
  cases o <;> rfl

theorem nameOf_formula (op : Operation) (x : Operands Int32) :
    nameOf (op.formula x) = op.mnemonic := by
  cases op with
  | alu o =>
    cases o with
    | not => rfl
    | nor => simp [formula, nameOf, mnemonic]
    | add | sub | and | or | xor => exact nameOf_infix _ _ _
  | branch c => rfl

theorem isWord_formula (op : Operation) (x : Operands Int32) :
    ∀ w ∈ op.formula x, IsWord w := by
  cases op with
  | alu o =>
    cases o with
    | add | sub | and | or | nor | not | xor => simp +decide [formula, AluOp.symbol]
  | branch c =>
    have hname : IsWord c.mnemonic := isWord_mnemonic (branch c)
    simp +decide [formula, hname]

theorem formula_congr {op op' : Operation} (h : op.mnemonic = op'.mnemonic) (x : Operands Int32) :
    op.formula x = op'.formula x := by
  rcases eq_of_mnemonic_eq h with rfl | ⟨c, c', rfl, rfl⟩
  · rfl
  · exact congrArg (fun name => [name, _]) h

theorem formula_inj {op op' : Operation} {x y : Operands Int32} :
    op.formula x = op'.formula y ↔
      op.mnemonic = op'.mnemonic ∧ ∀ k ∈ op.shown, x.get k = y.get k := by
  have hbits : ∀ {m n : Int32}, m.toUInt32 = n.toUInt32 ↔ m = n :=
    (Function.LeftInverse.injective Int32.toInt32_toUInt32).eq_iff
  have hsame : op.formula x = op.formula y ↔ ∀ k ∈ op.shown, x.get k = y.get k := by
    cases op with
    | alu o =>
      cases o with
      | add | sub | and | or | nor | not | xor =>
        simp [formula, shown, Operands.get, Int32.toInt_inj]
    | branch c => simp [formula, shown, Operands.get, hex_inj, UInt32.toNat_inj, hbits]
  constructor
  · intro h
    have hname : op.mnemonic = op'.mnemonic := by
      rw [← op.nameOf_formula x, h, nameOf_formula]
    exact ⟨hname, hsame.1 (h.trans (formula_congr hname y).symm)⟩
  · rintro ⟨hname, h⟩
    rw [hsame.2 h, formula_congr hname]

end Operation

/-! ## Lines -/

namespace Instruction

theorem words_of_undecodable {i : Instruction} (h : i.opcode.decode = none) :
    i.words = ["unknown", i.opcode.text, i.tag.text] := by
  rw [words, h]

theorem words_of_decode {i : Instruction} {op : Operation} (h : i.opcode.decode = some op) :
    i.words = op.mnemonic :: i.tag.text :: op.operandWords i.operands := by
  rw [words, h]
  rcases op with (_ | _ | _ | _ | _ | _ | _) | _ <;> rfl

theorem isLine_words (i : Instruction) : IsLine i.words := by
  cases h : i.opcode.decode with
  | none =>
    rw [words_of_undecodable h]
    exact ⟨List.cons_ne_nil _ _, by simp +decide⟩
  | some op =>
    rw [words_of_decode h]
    refine ⟨List.cons_ne_nil _ _, ?_⟩
    simpa using op.isWord_operandWords i.operands

theorem text_inj {i j : Instruction} : i.text = j.text ↔ i.words = j.words :=
  intercalate_inj i.isLine_words j.isLine_words

/-- What a line shows of two instructions is the same: the tags, and either two opcode words that
stand for nothing, or the names of two operations with all operands that are shown. Of an arithmetic
operation this includes whether, and for whose flags, it waits. -/
def ShownAlike (i j : Instruction) : Prop :=
  i.tag = j.tag ∧
    (i.opcode.decode = none ∧ j.opcode.decode = none ∧ i.opcode = j.opcode ∨
      ∃ op op', i.opcode.decode = some op ∧ j.opcode.decode = some op' ∧
        op.mnemonic = op'.mnemonic ∧
        (∀ k ∈ op.shown, (i.operands.get k).Agrees (j.operands.get k)) ∧
        ((∃ o, op = .alu o) → i.operands.f.awaited? = j.operands.f.awaited?))

theorem words_inj {i j : Instruction} : i.words = j.words ↔ i.ShownAlike j := by
  unfold ShownAlike
  cases hi : i.opcode.decode with
  | none =>
    rw [words_of_undecodable hi]
    cases hj : j.opcode.decode with
    | none =>
      rw [words_of_undecodable hj]
      simp [Opcode.text_inj, Tag.text_inj, and_comm]
    | some op' =>
      rw [words_of_decode hj]
      simp [op'.mnemonic_ne_unknown.symm]
  | some op =>
    rw [words_of_decode hi]
    cases hj : j.opcode.decode with
    | none =>
      rw [words_of_undecodable hj]
      simp [op.mnemonic_ne_unknown]
    | some op' =>
      rw [words_of_decode hj, List.cons.injEq, List.cons.injEq, Tag.text_inj]
      constructor
      · rintro ⟨hname, htag, hwords⟩
        rw [← Operation.operandWords_congr hname, Operation.operandWords_inj] at hwords
        exact ⟨htag, .inr ⟨op, op', rfl, rfl, hname, hwords⟩⟩
      · rintro ⟨htag, ⟨h, -⟩ | ⟨_, _, ⟨⟩, ⟨⟩, hname, h⟩⟩
        · cases h
        · refine ⟨hname, htag, ?_⟩
          rw [← Operation.operandWords_congr hname]
          exact Operation.operandWords_inj.2 h

end Instruction

namespace Request

theorem words_of_undecodable {r : Request} (h : r.opcode.decode = none) :
    r.words = [r.tag.text, "<-", "unknown", r.opcode.text] := by
  rw [words, h]
  rfl

theorem words_of_decode {r : Request} {op : Operation} (h : r.opcode.decode = some op) :
    r.words = r.tag.text :: "<-" :: op.formula r.operands := by
  rw [words, h]
  rcases op with (_ | _ | _ | _ | _ | _ | _) | _ <;> rfl

theorem isLine_words (r : Request) : IsLine r.words := by
  cases h : r.opcode.decode with
  | none =>
    rw [words_of_undecodable h]
    exact ⟨List.cons_ne_nil _ _, by simp +decide⟩
  | some op =>
    rw [words_of_decode h]
    refine ⟨List.cons_ne_nil _ _, ?_⟩
    simpa +decide using op.isWord_formula r.operands

theorem text_inj {r s : Request} : r.text = s.text ↔ r.words = s.words :=
  intercalate_inj r.isLine_words s.isLine_words

/-- What a line shows of two requests is the same: the tags, and either two opcode words that stand
for nothing, or the names of two operations with all values that are shown. -/
def ShownAlike (r s : Request) : Prop :=
  r.tag = s.tag ∧
    (r.opcode.decode = none ∧ s.opcode.decode = none ∧ r.opcode = s.opcode ∨
      ∃ op op', r.opcode.decode = some op ∧ s.opcode.decode = some op' ∧
        op.mnemonic = op'.mnemonic ∧ ∀ k ∈ op.shown, r.operands.get k = s.operands.get k)

theorem words_inj {r s : Request} : r.words = s.words ↔ r.ShownAlike s := by
  unfold ShownAlike
  -- a name that no operation has
  have hne (op : Operation) (x : Operands Int32) (o : Opcode) :
      op.formula x ≠ ["unknown", o.text] := by
    intro h
    refine op.mnemonic_ne_unknown ?_
    rw [← op.nameOf_formula x, h, Operation.nameOf]
  cases hr : r.opcode.decode with
  | none =>
    rw [words_of_undecodable hr]
    cases hs : s.opcode.decode with
    | none =>
      rw [words_of_undecodable hs]
      simp [Opcode.text_inj, Tag.text_inj]
    | some op' =>
      rw [words_of_decode hs]
      simp [(hne op' s.operands r.opcode).symm]
  | some op =>
    rw [words_of_decode hr]
    cases hs : s.opcode.decode with
    | none =>
      rw [words_of_undecodable hs]
      simp [hne]
    | some op' =>
      rw [words_of_decode hs]
      simp [Tag.text_inj, Operation.formula_inj]

end Request

/-- Two instructions have one line, or two requests, just when what the line shows of them is the
same. So nothing that is shown can be taken for anything else. -/
theorem disassembly_unambiguous :
    (∀ i j : Instruction, i.text = j.text ↔ i.ShownAlike j) ∧
      ∀ r s : Request, r.text = s.text ↔ r.ShownAlike s := by
  constructor
  · intro i j
    rw [Instruction.text_inj, Instruction.words_inj]
  · intro r s
    rw [Request.text_inj, Request.words_inj]

/-- Two branches without names of their own look alike, whatever they do not read. An `or` and a
`nor` of the same values do not. -/
theorem disassembly_unambiguous_plain_branch :
    let i : Instruction := ⟨⟨0x0F000003⟩, ⟨3⟩, ⟨.ready 1, .ready 2, .waitingOn ⟨7⟩⟩⟩
    let j : Instruction := ⟨⟨0x0FAB0104⟩, ⟨3⟩, ⟨.ready (-5), .waitingOn ⟨1⟩, ⟨true, ⟨7⟩, 9⟩⟩⟩
    let r : Request := ⟨⟨0⟩, ⟨0x0B000000⟩, ⟨-5, 3, 0⟩⟩
    let s : Request := ⟨⟨0⟩, ⟨0x0C000000⟩, ⟨-5, 3, 0⟩⟩
    i ≠ j ∧ i.text = j.text ∧ r.text ≠ s.text := by
  intro i j r s
  obtain ⟨hlines, hrequests⟩ := disassembly_unambiguous
  refine ⟨by decide, (hlines i j).2 ⟨rfl, .inr ?_⟩, fun h => ?_⟩
  · refine ⟨.branch ⟨3, false⟩, .branch ⟨4, true⟩, by decide, by decide, by decide, ?_, ?_⟩
    · intro k hk
      obtain rfl := List.mem_singleton.1 hk
      exact .inl ⟨rfl, rfl, rfl⟩
    · rintro ⟨o, ⟨⟩⟩
  · have hr : r.opcode.decode = some (.alu .or) := by decide
    have hs : s.opcode.decode = some (.alu .nor) := by decide
    obtain ⟨-, ⟨hnone, -⟩ | ⟨op, op', hop, hop', hname, -⟩⟩ := (hrequests r s).1 h
    · rw [hr] at hnone
      cases hnone
    · rw [hr] at hop
      rw [hs] at hop'
      cases hop
      cases hop'
      exact absurd hname (by decide)

end OutOfOrder
