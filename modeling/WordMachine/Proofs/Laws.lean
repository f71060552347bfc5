import Mathlib.Algebra.Order.Ring.Nat
import WordMachine.Machine.Arithmetic

/-!
# The laws of the basic opcodes

What each opcode is to compute, said without the machine's registers: over exact integers for the
opcodes that store a result, and as a condition for those that test.  The machine computes in
registers of 32 and 64 bits, and in these nothing is lost but what the law of a shift lets go.
-/

namespace WordMachine

namespace BasicOp

/-- The condition that an opcode tests on target and source, if it is one that tests. -/
def condition? : BasicOp → Option (Word → Word → Prop)
  | ife => some fun a b => a = b
  | ifn => some fun a b => a ≠ b
  | ifg => some fun a b => a.toNat > b.toNat
  | ifb => some fun a b => a &&& b ≠ 0
  | _ => none

/-- What an opcode computes of `a` and `b` over exact integers: the result is `t`, and the overflow
register, which was `o`, is to be `o'`.  A test has no result. -/
def Law (op : BasicOp) (a b o t o' : Nat) : Prop :=
  match op with
  | set => t = b ∧ o' = o
  | add => t = (a + b) % 65536 ∧ o' = if 65536 ≤ a + b then 1 else o
  | sub => (t : Int) = ((a : Int) - (b : Int)) % 65536 ∧ o' = if a < b then 0xffff else o
  | mul => 65536 * o' + t = a * b
  | div => if b = 0 then t = 0 ∧ o' = 0 else 65536 * t + o' = a * 65536 / b
  | mod => t = (if b = 0 then 0 else a % b) ∧ o' = o
  | shl => 65536 * o' + t = a * 2 ^ b % 4294967296
  | shr => 65536 * t + o' = a * 65536 / 2 ^ b
  | and => t = a &&& b ∧ o' = o
  | bor => t = a ||| b ∧ o' = o
  | xor => t = a ^^^ b ∧ o' = o
  | ife | ifn | ifg | ifb => False

/-- Whether the opcode writes the overflow register when it is given the words `a` and `b`. -/
def overflows (op : BasicOp) (a b : Word) : Bool :=
  match op with
  | add => addressSpace ≤ a.toNat + b.toNat
  | sub => a < b
  | mul | div | shl | shr => true
  | set | mod | and | bor | xor | ife | ifn | ifg | ifb => false

/-- Whether the result has two words, of which one goes to the overflow register. -/
def splits : BasicOp → Bool
  | mul | div | shl | shr => true
  | set | add | sub | mod | and | bor | xor | ife | ifn | ifg | ifb => false

end BasicOp

/-- Sums, products, quotients and the shift by a word come out exact in registers of 32 bits. -/
structure ExactInDoubleWords (a b : Word) : Prop where
  sum : (a.toUInt32 + b.toUInt32).toNat = a.toNat + b.toNat
  product : (a.toUInt32 * b.toUInt32).toNat = a.toNat * b.toNat
  quotient : (a.toUInt32 / b.toUInt32).toNat = a.toNat / b.toNat
  shifted : (a.toUInt32 <<< 16).toNat = a.toNat * 65536
  fraction : ((a.toUInt32 <<< 16) / b.toUInt32).toNat = a.toNat * 65536 / b.toNat

theorem exactInDoubleWords (a b : Word) : ExactInDoubleWords a b := by
  have ha := a.toNat_lt
  have hb := b.toNat_lt
  have hproduct : a.toNat * b.toNat < 65536 * 65536 := Nat.mul_lt_mul'' ha hb
  have hshifted : (a.toUInt32 <<< 16).toNat = a.toNat * 65536 := by
    rw [UInt32.toNat_shiftLeft, UInt16.toNat_toUInt32, Nat.shiftLeft_eq]
    change a.toNat * 65536 % 4294967296 = a.toNat * 65536
    exact Nat.mod_eq_of_lt (by omega)
  constructor
  · rw [UInt32.toNat_add, UInt16.toNat_toUInt32, UInt16.toNat_toUInt32]
    exact Nat.mod_eq_of_lt (by omega)
  · rw [UInt32.toNat_mul, UInt16.toNat_toUInt32, UInt16.toNat_toUInt32]
    exact Nat.mod_eq_of_lt hproduct
  · rw [UInt32.toNat_div, UInt16.toNat_toUInt32, UInt16.toNat_toUInt32]
  · exact hshifted
  · rw [UInt32.toNat_div, hshifted, UInt16.toNat_toUInt32]

/-- Shifts to the left keep the low 64 bits of the product with the power of two. -/
theorem toNat_shiftLeft (value : UInt64) (amount : UInt32) :
    (shiftLeft value amount).toNat =
      value.toNat * 2 ^ amount.toNat % 18446744073709551616 := by
  have hlt : amount < 64 ↔ amount.toNat < 64 := UInt32.lt_iff_toNat_lt
  rw [shiftLeft]
  by_cases hsmall : amount.toNat < 64
  · rw [if_pos (hlt.mpr hsmall), UInt64.toNat_shiftLeft, UInt32.toNat_toUInt64,
      Nat.mod_eq_of_lt hsmall, Nat.shiftLeft_eq]
  · -- The factor of two to the sixty-fourth leaves nothing of the low 64 bits.
    have hpower : 18446744073709551616 ∣ 2 ^ amount.toNat :=
      Nat.pow_dvd_pow 2 (Nat.not_lt.mp hsmall)
    rw [if_neg fun h => hsmall (hlt.mp h), Nat.mod_eq_zero_of_dvd (hpower.mul_left value.toNat)]
    rfl

/-- Shifts to the right divide by the power of two. -/
theorem toNat_shiftRight (value : UInt64) (amount : UInt32) :
    (shiftRight value amount).toNat = value.toNat / 2 ^ amount.toNat := by
  have hlt : amount < 64 ↔ amount.toNat < 64 := UInt32.lt_iff_toNat_lt
  rw [shiftRight]
  by_cases hsmall : amount.toNat < 64
  · rw [if_pos (hlt.mpr hsmall), UInt64.toNat_shiftRight, UInt32.toNat_toUInt64,
      Nat.mod_eq_of_lt hsmall, Nat.shiftRight_eq_div_pow]
  · have hpower : value.toNat < 2 ^ amount.toNat :=
      Nat.lt_of_lt_of_le value.toNat_lt (Nat.pow_le_pow_right (by decide) (Nat.not_lt.mp hsmall))
    rw [if_neg fun h => hsmall (hlt.mp h), Nat.div_eq_of_lt hpower]
    rfl

/-- The quotient of a double word whose low word is zero, taken apart into words. -/
theorem quotient_eq {d : Nat} (m : Nat) :
    65536 * (m / d) + m * 65536 / d % 65536 = m * 65536 / d := by
  have hhigh : m * 65536 / d / 65536 = m / d := by
    rw [Nat.div_div_eq_div_mul, Nat.mul_div_mul_right m d (by decide)]
  rw [← hhigh]
  exact Nat.div_add_mod _ 65536

namespace BasicOp

variable {op : BasicOp} {a b result : Word} {before after : Option Word}

theorem apply_of_condition?
    {condition : Word → Word → Prop} (h : op.condition? = some condition) (a b : Word) :
    ∃ passed, op.apply a b = .test passed ∧ (passed = true ↔ condition a b) := by
  have hand : a.toUInt32 &&& b.toUInt32 = 0 ↔ a &&& b = 0 := by
    rw [← UInt16.toUInt32_and]
    exact UInt16.toUInt32_inj (b := 0)
  cases op with
  | ife | ifn =>
    obtain rfl := Option.some.inj h
    exact ⟨_, rfl, by simp [UInt16.toUInt32_inj]⟩
  | ifg =>
    obtain rfl := Option.some.inj h
    exact ⟨_, rfl, by simp [UInt16.lt_iff_toNat_lt]⟩
  | ifb =>
    obtain rfl := Option.some.inj h
    exact ⟨_, rfl, by simp [hand]⟩
  | _ => contradiction

theorem writesTarget_of_apply_eq_store (h : op.apply a b = .store result before after) :
    op.writesTarget = true := by
  cases op with
  | ife | ifn | ifg | ifb => simp [apply] at h
  | _ => rfl

theorem writesTarget_of_apply_eq_test {passed : Bool} (h : op.apply a b = .test passed) :
    op.writesTarget = false := by
  cases op with
  | ife | ifn | ifg | ifb => rfl
  | div =>
    simp only [apply] at h
    split at h <;> contradiction
  | _ => simp [apply] at h

/-- A test that comes out has a condition, which decides it. -/
theorem condition?_of_apply_eq_test {passed : Bool} (h : op.apply a b = .test passed) :
    ∃ condition, op.condition? = some condition ∧ (passed = true ↔ condition a b) := by
  have hwrites := writesTarget_of_apply_eq_test h
  have htests : ∃ condition, op.condition? = some condition := by
    cases op with
    | ife | ifn | ifg | ifb => exact ⟨_, rfl⟩
    | _ => contradiction
  obtain ⟨condition, hcondition⟩ := htests
  obtain ⟨passed', happly, hpassed⟩ := apply_of_condition? hcondition a b
  obtain rfl := Outcome.test.inj (h.symm.trans happly)
  exact ⟨condition, hcondition, hpassed⟩

theorem carries_iff (a b : Word) :
    0xffff < a.toUInt32 + b.toUInt32 ↔ 65536 ≤ a.toNat + b.toNat := by
  rw [UInt32.lt_iff_toNat_lt, (exactInDoubleWords a b).sum]
  exact Nat.lt_iff_add_one_le

theorem borrows_iff (a b : Word) : a.toUInt32 < b.toUInt32 ↔ a.toNat < b.toNat := by
  rw [UInt16.toUInt32_lt, UInt16.lt_iff_toNat_lt]

theorem toUInt32_eq_zero_iff (b : Word) : b.toUInt32 = 0 ↔ b.toNat = 0 := by
  rw [← UInt32.toNat_inj, UInt16.toNat_toUInt32]
  rfl

/-- An opcode that does not overflow gives no word for the overflow register. -/
theorem no_overflow_of_apply_eq_store
    (h : op.apply a b = .store result before after) (hoverflows : op.overflows a b = false) :
    before = none ∧ after = none := by
  cases op with
  | mul | div | shl | shr => simp [overflows] at hoverflows
  | add =>
    have hcarry : ¬addressSpace ≤ a.toNat + b.toNat := by simpa [overflows] using hoverflows
    simp only [apply, if_neg (mt (carries_iff a b).mp hcarry)] at h
    injection h with _ hbefore hafter
    exact ⟨hbefore.symm, hafter.symm⟩
  | sub =>
    have hborrow : ¬a.toNat < b.toNat := by
      simpa [overflows, UInt16.lt_iff_toNat_lt] using hoverflows
    simp only [apply, if_neg (mt (borrows_iff a b).mp hborrow)] at h
    injection h with _ hbefore hafter
    exact ⟨hbefore.symm, hafter.symm⟩
  | ife | ifn | ifg | ifb => simp [apply] at h
  | _ =>
    injection h with _ hbefore hafter
    exact ⟨hbefore.symm, hafter.symm⟩

theorem law_add (h : add.apply a b = .store result before after) (o : Word) :
    add.Law a.toNat b.toNat o.toNat result.toNat (after.getD (before.getD o)).toNat := by
  cases h
  constructor
  · rw [UInt32.toNat_toUInt16, (exactInDoubleWords a b).sum]
  · by_cases hcarry : 65536 ≤ a.toNat + b.toNat
    · rw [if_pos ((carries_iff a b).mpr hcarry), if_pos hcarry]
      rfl
    · rw [if_neg (mt (carries_iff a b).mp hcarry), if_neg hcarry]
      rfl

theorem law_sub (h : sub.apply a b = .store result before after) (o : Word) :
    sub.Law a.toNat b.toNat o.toNat result.toNat (after.getD (before.getD o)).toNat := by
  cases h
  have ha := a.toNat_lt
  have hb := b.toNat_lt
  constructor
  · rw [UInt32.toNat_toUInt16, UInt32.toNat_sub, UInt16.toNat_toUInt32, UInt16.toNat_toUInt32]
    omega
  · by_cases hborrow : a.toNat < b.toNat
    · rw [if_pos ((borrows_iff a b).mpr hborrow), if_pos hborrow]
      rfl
    · rw [if_neg (mt (borrows_iff a b).mp hborrow), if_neg hborrow]
      rfl

theorem law_mul (h : mul.apply a b = .store result before after) (o : Word) :
    mul.Law a.toNat b.toNat o.toNat result.toNat (after.getD (before.getD o)).toNat := by
  cases h
  have hexact := (exactInDoubleWords a b).product
  have hlow : (a.toUInt32 * b.toUInt32).toUInt16.toNat = a.toNat * b.toNat % 65536 := by
    rw [UInt32.toNat_toUInt16, hexact]
  have hproduct : a.toNat * b.toNat < 65536 * 65536 := Nat.mul_lt_mul'' a.toNat_lt b.toNat_lt
  have hhigh : ((a.toUInt32 * b.toUInt32) >>> 16).toUInt16.toNat = a.toNat * b.toNat / 65536 := by
    rw [UInt32.toNat_toUInt16, UInt32.toNat_shiftRight, hexact, Nat.shiftRight_eq_div_pow]
    exact Nat.mod_eq_of_lt (Nat.div_lt_of_lt_mul hproduct)
  rw [Law, Option.getD_some, hlow, hhigh]
  exact Nat.div_add_mod _ 65536

theorem law_div (h : div.apply a b = .store result before after) (o : Word) :
    div.Law a.toNat b.toNat o.toNat result.toNat (after.getD (before.getD o)).toNat := by
  by_cases hb : b.toNat = 0
  · simp only [apply, if_pos ((toUInt32_eq_zero_iff b).mpr hb)] at h
    cases h
    simp [Law, hb]
  · simp only [apply, if_neg (mt (toUInt32_eq_zero_iff b).mp hb)] at h
    cases h
    have hexact := exactInDoubleWords a b
    have hquotient : (a.toUInt32 / b.toUInt32).toUInt16.toNat = a.toNat / b.toNat := by
      rw [UInt32.toNat_toUInt16, hexact.quotient]
      exact Nat.mod_eq_of_lt (Nat.lt_of_le_of_lt (Nat.div_le_self _ _) a.toNat_lt)
    have hfraction : ((a.toUInt32 <<< 16) / b.toUInt32).toUInt16.toNat =
        a.toNat * 65536 / b.toNat % 65536 := by
      rw [UInt32.toNat_toUInt16, hexact.fraction]
    rw [Law, if_neg hb, Option.getD_some, hquotient, hfraction]
    exact quotient_eq a.toNat

theorem law_mod (h : mod.apply a b = .store result before after) (o : Word) :
    mod.Law a.toNat b.toNat o.toNat result.toNat (after.getD (before.getD o)).toNat := by
  cases h
  refine ⟨?_, rfl⟩
  by_cases hb : b.toNat = 0
  · rw [if_pos ((toUInt32_eq_zero_iff b).mpr hb), if_pos hb]
    rfl
  · rw [if_neg (mt (toUInt32_eq_zero_iff b).mp hb), if_neg hb, UInt32.toNat_toUInt16,
      UInt32.toNat_mod, UInt16.toNat_toUInt32, UInt16.toNat_toUInt32]
    exact Nat.mod_eq_of_lt (Nat.lt_of_le_of_lt (Nat.mod_le _ _) a.toNat_lt)

theorem law_shl (h : shl.apply a b = .store result before after) (o : Word) :
    shl.Law a.toNat b.toNat o.toNat result.toNat (after.getD (before.getD o)).toNat := by
  cases h
  have hshifted := toNat_shiftLeft a.toUInt32.toUInt64 b.toUInt32
  rw [UInt32.toNat_toUInt64, UInt16.toNat_toUInt32, UInt16.toNat_toUInt32] at hshifted
  have hlow : (shiftLeft a.toUInt32.toUInt64 b.toUInt32).toUInt16.toNat =
      a.toNat * 2 ^ b.toNat % 18446744073709551616 % 65536 := by
    rw [UInt64.toNat_toUInt16, hshifted]
  have hhigh : (shiftLeft a.toUInt32.toUInt64 b.toUInt32 >>> 16).toUInt16.toNat =
      a.toNat * 2 ^ b.toNat % 18446744073709551616 / 65536 % 65536 := by
    rw [UInt64.toNat_toUInt16, UInt64.toNat_shiftRight, hshifted, Nat.shiftRight_eq_div_pow]
    rfl
  rw [Law, Option.getD_some, hlow, hhigh]
  generalize a.toNat * 2 ^ b.toNat = shifted
  omega

theorem law_shr (h : shr.apply a b = .store result before after) (o : Word) :
    shr.Law a.toNat b.toNat o.toNat result.toNat (after.getD (before.getD o)).toNat := by
  cases h
  have hlt := a.toNat_lt
  have hhigh : (shiftRight a.toUInt32.toUInt64 b.toUInt32).toUInt16.toNat =
      a.toNat / 2 ^ b.toNat := by
    rw [UInt64.toNat_toUInt16, toNat_shiftRight, UInt32.toNat_toUInt64, UInt16.toNat_toUInt32,
      UInt16.toNat_toUInt32]
    exact Nat.mod_eq_of_lt (Nat.lt_of_le_of_lt (Nat.div_le_self _ _) hlt)
  have hwidened : (a.toUInt32.toUInt64 <<< 16).toNat = a.toNat * 65536 := by
    rw [UInt64.toNat_shiftLeft, UInt32.toNat_toUInt64, UInt16.toNat_toUInt32, Nat.shiftLeft_eq]
    change a.toNat * 65536 % 18446744073709551616 = a.toNat * 65536
    exact Nat.mod_eq_of_lt (by omega)
  have hlow : (shiftRight (a.toUInt32.toUInt64 <<< 16) b.toUInt32).toUInt16.toNat =
      a.toNat * 65536 / 2 ^ b.toNat % 65536 := by
    rw [UInt64.toNat_toUInt16, toNat_shiftRight, hwidened, UInt16.toNat_toUInt32]
  rw [Law, Option.getD_some, hhigh, hlow]
  exact quotient_eq a.toNat

/-- Result and overflow word are as the law of the opcode says. -/
theorem law_of_apply_eq_store (h : op.apply a b = .store result before after) (o : Word) :
    op.Law a.toNat b.toNat o.toNat result.toNat (after.getD (before.getD o)).toNat := by
  cases op with
  | add => exact law_add h o
  | sub => exact law_sub h o
  | mul => exact law_mul h o
  | div => exact law_div h o
  | mod => exact law_mod h o
  | shl => exact law_shl h o
  | shr => exact law_shr h o
  | set =>
    cases h
    exact ⟨rfl, rfl⟩
  | and =>
    cases h
    rw [UInt32.toUInt16_and, UInt16.toUInt16_toUInt32, UInt16.toUInt16_toUInt32]
    exact ⟨UInt16.toNat_and a b, rfl⟩
  | bor =>
    cases h
    rw [UInt32.toUInt16_or, UInt16.toUInt16_toUInt32, UInt16.toUInt16_toUInt32]
    exact ⟨UInt16.toNat_or a b, rfl⟩
  | xor =>
    cases h
    rw [UInt32.toUInt16_xor, UInt16.toUInt16_toUInt32, UInt16.toUInt16_toUInt32]
    exact ⟨UInt16.toNat_xor a b, rfl⟩
  | ife | ifn | ifg | ifb => contradiction

/-- An overflow word that is written after the result is the second word of one. -/
theorem splits_of_apply_eq_store (h : op.apply a b = .store result before after) :
    op.splits = after.isSome := by
  cases op with
  | div =>
    simp only [apply] at h
    split at h <;> cases h <;> rfl
  | ife | ifn | ifg | ifb => contradiction
  | _ =>
    cases h
    rfl

end BasicOp

end WordMachine
