import WordMachine.Instruction.Encoding

/-!
# Instruction words read back

A word holds an opcode and two codes in fields of their own, and every code of a field stands for
one operand or opcode.  So a word is the encoding of what it decodes to.  In the other direction an
encoding keeps only what fits into a field: an instruction is what its encoding decodes to if and
only if its parts are canonical.
-/

namespace WordMachine

namespace Operand

/-- The operand has a code of its own: it points with a general register only, and a literal is a
small one. -/
def Canonical : Operand → Prop
  | indirect r | indexed r => r ∈ Register.general
  | literal value => value.toNat < 32
  | register _ | pop | peek | push | absolute | immediate => True

instance : DecidablePred Canonical
  | indirect r | indexed r => inferInstanceAs (Decidable (r ∈ Register.general))
  | literal value => inferInstanceAs (Decidable (value.toNat < 32))
  | register _ | pop | peek | push | absolute | immediate => .isTrue trivial

theorem code_ofField {field : Nat} (h : field < 64) :
    (ofField field).code = field ∧ (ofField field).Canonical := by
  have hall : ∀ k < 64, (ofField k).code = k ∧ (ofField k).Canonical := by decide +kernel
  exact hall field h

theorem code_ofCode (code : Nat) :
    (ofCode code).code = code % 64 ∧ (ofCode code).Canonical :=
  code_ofField (Nat.mod_lt code (by decide))

theorem code_lt (operand : Operand) : operand.code < 64 := by
  cases operand with
  | register r => cases r <;> decide
  | indirect r => cases r <;> decide
  | indexed r => cases r <;> decide
  | literal value =>
    rw [code]
    omega
  | _ => decide

/-- A literal's code keeps the five lowest bits of its value. -/
theorem ofField_code_literal (value : UInt8) :
    ofField (literal value).code = literal value ↔ value.toNat < 32 := by
  have hall : ∀ k < 32, ofField (0x20 + k) = literal (UInt8.ofNat k) := by decide +kernel
  have hlow : (UInt8.ofNat (value.toNat % 32)).toNat = value.toNat % 32 :=
    Nat.mod_eq_of_lt (by omega)
  rw [code, hall _ (Nat.mod_lt _ (by decide)), literal.injEq, ← UInt8.toNat_inj, hlow]
  exact Nat.mod_eq_iff_lt (by decide)

/-- An operand is what its code stands for just if it is canonical. -/
theorem ofField_code (operand : Operand) : ofField operand.code = operand ↔ operand.Canonical := by
  cases operand with
  | register r => cases r <;> decide
  | indirect r => cases r <;> decide
  | indexed r => cases r <;> decide
  | literal value => exact ofField_code_literal value
  | _ => decide

end Operand

namespace SpecialOp

/-- The opcode has a code of its own: a reserved code fits its field and is not that of a call. -/
def Canonical : SpecialOp → Prop
  | jsr => True
  | reserved code => code.toNat < 64 ∧ code.toNat ≠ 1

theorem code_ofCode (code : Nat) :
    (ofCode code).code = code % 64 ∧ (ofCode code).Canonical := by
  rw [ofCode]
  split
  · rename_i hcall
    exact ⟨hcall.symm, trivial⟩
  · rename_i hcall
    have hlow : (UInt8.ofNat (code % 64)).toNat = code % 64 := Nat.mod_eq_of_lt (by omega)
    rw [SpecialOp.code, Canonical, hlow]
    exact ⟨Nat.mod_mod code 64, Nat.mod_lt code (by decide), hcall⟩

theorem code_lt (op : SpecialOp) : op.code < 64 := by
  cases op with
  | jsr => decide
  | reserved code => exact Nat.mod_lt code.toNat (by decide)

/-- An opcode is what its code stands for just if it is canonical. -/
theorem ofCode_code (op : SpecialOp) : ofCode op.code = op ↔ op.Canonical := by
  cases op with
  | jsr => exact iff_of_true rfl trivial
  | reserved code =>
    have hlow : (UInt8.ofNat (code.toNat % 64)).toNat = code.toNat % 64 :=
      Nat.mod_eq_of_lt (by omega)
    by_cases hcall : code.toNat % 64 = 1
    · have hjsr : ofCode (reserved code).code = jsr := if_pos ((Nat.mod_mod _ _).trans hcall)
      rw [hjsr]
      refine iff_of_false (by simp) ?_
      rintro ⟨hlt, hne⟩
      exact hne ((Nat.mod_eq_of_lt hlt).symm.trans hcall)
    · have hreserved : ofCode (reserved code).code = reserved (UInt8.ofNat (code.toNat % 64)) := by
        rw [ofCode, SpecialOp.code, Nat.mod_mod, if_neg hcall]
      rw [hreserved, reserved.injEq, ← UInt8.toNat_inj, hlow, Nat.mod_eq_iff_lt (by decide)]
      refine ⟨fun hlt => ⟨hlt, fun hone => hcall ?_⟩, And.left⟩
      rw [hone]

end SpecialOp

namespace BasicOp

theorem ofCode?_mod (code : Nat) : ofCode? (code % 16) = ofCode? code := by
  simp only [ofCode?, Nat.mod_mod]

theorem ofCode?_eq_some_iff {code : Nat} {op : BasicOp} :
    ofCode? code = some op ↔ code % 16 = op.code := by
  have hall : ∀ k < 16, ofCode? k = some op ↔ k = op.code := by
    cases op <;> decide
  rw [← ofCode?_mod]
  exact hall _ (Nat.mod_lt code (by decide))

theorem ofCode?_eq_none_iff {code : Nat} : ofCode? code = none ↔ code % 16 = 0 := by
  have hall : ∀ k < 16, ofCode? k = none ↔ k = 0 := by decide
  rw [← ofCode?_mod]
  exact hall _ (Nat.mod_lt code (by decide))

theorem code_lt (op : BasicOp) : op.code < 16 := by
  cases op <;> decide

end BasicOp

namespace Instruction

/-- Every part of the instruction is canonical. -/
def Canonical : Instruction → Prop
  | basic _ a b => a.Canonical ∧ b.Canonical
  | special op a => op.Canonical ∧ a.Canonical

/-- The three fields of a word, the lowest first, as one number. -/
theorem toNat_ofNat_fields {low middle high : Nat} (hlow : low < 16) (hmiddle : middle < 64)
    (hhigh : high < 64) :
    (UInt16.ofNat (low + middle * 16 + high * 1024)).toNat = low + middle * 16 + high * 1024 :=
  Nat.mod_eq_of_lt (by omega)

/-- The operands of a basic instruction come back from its word as what their codes stand for. -/
theorem decode_encode_basic (op : BasicOp) (a b : Operand) :
    decode (basic op a b).encode = basic op (.ofField a.code) (.ofField b.code) := by
  have hop := op.code_lt
  have ha := a.code_lt
  have hb := b.code_lt
  have hlow : BasicOp.ofCode? (op.code + a.code * 16 + b.code * 1024) = some op :=
    BasicOp.ofCode?_eq_some_iff.mpr (by omega)
  have hmiddle : (op.code + a.code * 16 + b.code * 1024) / 16 % 64 = a.code := by omega
  have hhigh : (op.code + a.code * 16 + b.code * 1024) / 1024 % 64 = b.code := by omega
  simp only [decode, encode, toNat_ofNat_fields hop ha hb, hlow, Operand.ofCode, hmiddle, hhigh]

/-- Opcode and operand of a special instruction come back from its word as what their codes stand
for. -/
theorem decode_encode_special (op : SpecialOp) (a : Operand) :
    decode (special op a).encode = special (.ofCode op.code) (.ofField a.code) := by
  have hop := op.code_lt
  have ha := a.code_lt
  have hword := toNat_ofNat_fields (by decide : 0 < 16) hop ha
  rw [Nat.zero_add] at hword
  have hlow : BasicOp.ofCode? (op.code * 16 + a.code * 1024) = none :=
    BasicOp.ofCode?_eq_none_iff.mpr (by omega)
  have hmiddle : (op.code * 16 + a.code * 1024) / 16 % 64 = op.code := by omega
  have hhigh : (op.code * 16 + a.code * 1024) / 1024 % 64 = a.code := by omega
  have hcode : SpecialOp.ofCode ((op.code * 16 + a.code * 1024) / 16) = .ofCode op.code := by
    simp only [SpecialOp.ofCode, hmiddle, Nat.mod_eq_of_lt hop]
  simp only [decode, encode, hword, hlow, hcode, Operand.ofCode, hhigh]

/-- An instruction is what its word decodes to just if it is canonical. -/
theorem decode_encode_iff (instruction : Instruction) :
    decode instruction.encode = instruction ↔ instruction.Canonical := by
  cases instruction with
  | basic op a b =>
    rw [decode_encode_basic, basic.injEq, Operand.ofField_code, Operand.ofField_code, Canonical]
    exact and_iff_right rfl
  | special op a =>
    rw [decode_encode_special, special.injEq, SpecialOp.ofCode_code, Operand.ofField_code,
      Canonical]

/-- What a word decodes to is canonical. -/
theorem canonical_decode (word : Word) : (decode word).Canonical := by
  rw [decode]
  split
  · exact ⟨(Operand.code_ofCode _).2, (Operand.code_ofCode _).2⟩
  · exact ⟨(SpecialOp.code_ofCode _).2, (Operand.code_ofCode _).2⟩

/-- Decoding loses nothing of a word. -/
theorem encode_decode (word : Word) : (decode word).encode = word := by
  have hlt := word.toNat_lt
  rw [decode]
  split
  · rename_i op hop
    have hlow := BasicOp.ofCode?_eq_some_iff.mp hop
    have hfields : op.code + word.toNat / 16 % 64 * 16 + word.toNat / 1024 % 64 * 1024 =
        word.toNat := by omega
    rw [encode, (Operand.code_ofCode _).1, (Operand.code_ofCode _).1, hfields, UInt16.ofNat_toNat]
  · rename_i hop
    have hlow := BasicOp.ofCode?_eq_none_iff.mp hop
    have hfields : word.toNat / 16 % 64 * 16 + word.toNat / 1024 % 64 * 1024 = word.toNat := by
      omega
    rw [encode, (SpecialOp.code_ofCode _).1, (Operand.code_ofCode _).1, hfields,
      UInt16.ofNat_toNat]

end Instruction

end WordMachine
