import WordMachine.Proofs.Stack

/-!
# Arithmetic over exact integers

Target and overflow register together hold what an arithmetic opcode computes.  By `BasicOp.Law`
result and overflow word belong to the values of the operands, and `Guest.Computes` says where the
two are after a step.  When the target is the overflow register itself, one of them is lost: a carry
or borrow is written before the result, and the second word of a product, quotient or shift after
it.
-/

namespace WordMachine

theorem Registers.o_overflow (registers : Registers) (word : Option Word) :
    (registers.overflow word).o = word.getD registers.o := by
  cases word <;> rfl

namespace Instruction.Completion

variable {op : BasicOp} {a b : Operand} {registers registers' : Registers} {memory : Memory}
  {stored : Option (Word × Word)} {skip : Bool} {result : Word} {before after : Option Word}

/-- A completion with a result sets a register to it or stores it to memory, between the overflow
words. -/
theorem of_outcome_eq_store
    (h : (basic op a b).Completion registers memory registers' stored skip)
    (houtcome : (basic op a b).outcome? registers memory = some (.store result before after)) :
    (∃ r, a = .register r ∧
      registers' =
        ((((basic op a b).moved registers).overflow before).set r result).overflow after) ∨
    ∃ address, a.place registers memory (registers.pc + 1) = .memory address ∧
      registers' = (((basic op a b).moved registers).overflow before).overflow after := by
  cases h with
  | test htest =>
    rw [houtcome] at htest
    injection htest with hne
    contradiction
  | register hstore =>
    rw [houtcome] at hstore
    cases hstore
    exact .inl ⟨_, rfl, rfl⟩
  | memory hstore haddress =>
    rw [houtcome] at hstore
    cases hstore
    rename_i address
    refine .inr ⟨address, ?_, rfl⟩
    cases a <;> simp_all [Operand.place, Operand.address?]

/-- The overflow register keeps the last word written to it, unless the result goes there and no
overflow word comes after it. -/
theorem landed_o
    (h : (basic op a b).Completion registers memory registers' stored skip)
    (houtcome : (basic op a b).outcome? registers memory = some (.store result before after))
    (hlast : a = .register .o → after.isSome = true) :
    ((basic op a b).landed registers').o = after.getD (before.getD registers.o) := by
  have hmoved := get_moved_of_ne registers (basic op a b) (show Register.o ≠ .sp by decide)
  have hlanded := get_landed_of_ne registers' (basic op a b) (show Register.o ≠ .pc by decide)
  refine hlanded.trans ?_
  have hbefore : (((basic op a b).moved registers).overflow before).o = before.getD registers.o :=
    (Registers.o_overflow _ before).trans (congrArg before.getD hmoved)
  obtain ⟨r, hr, rfl⟩ | ⟨address, -, rfl⟩ := h.of_outcome_eq_store houtcome
  · refine (Registers.o_overflow _ after).trans ?_
    cases after with
    | some word => rfl
    | none =>
      have hne : Register.o ≠ r := by
        rintro rfl
        exact Bool.false_ne_true (hlast hr)
      exact (Registers.get_set_of_ne _ result hne).trans hbefore
  · exact (Registers.o_overflow _ after).trans (congrArg after.getD hbefore)

/-- The result stays in the register it goes to, unless an overflow word is written over it. -/
theorem landed_result
    {r : Register}
    (h : (basic op (.register r) b).Completion registers memory registers' stored skip)
    (houtcome : (basic op (.register r) b).outcome? registers memory =
      some (.store result before after))
    (hlast : r = .o → after = none) :
    ((basic op (.register r) b).landed registers').get r = result := by
  have hwrites := BasicOp.writesTarget_of_apply_eq_store (Option.some.inj houtcome)
  have hlanded : ((basic op (.register r) b).landed registers').get r = registers'.get r := by
    by_cases hpc : r = .pc
    · rw [landed, if_pos (jumps_iff.mpr (.inl (hpc ▸ if_pos hwrites)))]
    · exact get_landed_of_ne _ _ hpc
  obtain ⟨s, hs, rfl⟩ | ⟨address, hplace, -⟩ := h.of_outcome_eq_store houtcome
  · injection hs with hs
    rw [hlanded, hs, Registers.get_overflow _ (hs ▸ hlast), Registers.get_set_self]
  · contradiction

end Instruction.Completion

namespace Guest

/-- What the opcode computes of the values that the operands have before the step, as the law of the
opcode gives it, is in target and overflow register after the step: the result `t` in the target and
`o` in the overflow register, each unless the other was written over it. -/
structure Computes (guest guest' : Guest) (op : BasicOp) (a b : Operand) (t o : Word) : Prop where
  law : op.Law (a.value guest.registers guest.memory (guest.registers.pc + 1)).toNat
    (b.value guest.registers guest.memory (guest.registers.pc + (1 + a.ownWords))).toNat
    guest.registers.o.toNat t.toNat o.toNat
  target : a.place guest.registers guest.memory (guest.registers.pc + 1) ≠ .nowhere
  result : (a = .register .o → op.splits = false) → guest.Receives guest' a t
  overflow : (a = .register .o → op.splits = true) → guest'.registers.o = o

theorem computes_of_step
    {guest guest' : Guest} (hskip : guest.skip = false) {op : BasicOp} {a b : Operand}
    (hwrites : op.writesTarget = true) (h : guest.step = .ok (.basic op a b) guest') :
    ∃ t o, Computes guest guest' op a b t o := by
  have hstored (address : Word)
      (haddress : (Instruction.basic op a b).slot? guest.registers guest.memory = some address) :=
    stored_of_step hskip h haddress
  obtain ⟨-, registers, stored, skip, hcompletion, hinstruction, rfl⟩ := step_completed hskip h
  rw [← hinstruction] at hcompletion hstored ⊢
  cases houtcome : op.apply (a.value guest.registers guest.memory (guest.registers.pc + 1))
      (b.value guest.registers guest.memory (guest.registers.pc + (1 + a.ownWords))) with
  | test passed =>
    rw [BasicOp.writesTarget_of_apply_eq_test houtcome] at hwrites
    contradiction
  | store t before after =>
    have hsplits := BasicOp.splits_of_apply_eq_store houtcome
    have hsome : (Instruction.basic op a b).outcome? guest.registers guest.memory =
        some (.store t before after) := congrArg some houtcome
    refine ⟨t, after.getD (before.getD guest.registers.o), ?_, ?_, ?_, ?_⟩
    · exact BasicOp.law_of_apply_eq_store houtcome guest.registers.o
    · obtain ⟨r, rfl, -⟩ | ⟨address, hplace, -⟩ := hcompletion.of_outcome_eq_store hsome
      · exact Place.noConfusion
      · rw [hplace]
        exact Place.noConfusion
    · intro hlast
      constructor
      · rintro r rfl
        refine hcompletion.landed_result hsome fun hr => ?_
        have hnone := hlast (congrArg Operand.register hr)
        rw [hsplits] at hnone
        simpa using hnone
      · intro address haddress
        obtain ⟨word, hword, hmemory⟩ := hstored address ((if_pos hwrites).trans haddress)
        simp only [Instruction.stored?, hsome] at hword
        cases hword
        exact hmemory
    · exact fun hlast => hcompletion.landed_o hsome fun ha => hsplits ▸ hlast ha

end Guest

namespace Machine

variable {σ : Type} [Watcher σ]

/-- A completed step that skips nothing computes exactly what its opcode says, and nothing that it
computes in between is too large for a double word. -/
theorem step_computes
    {m m' : Machine σ} (hskip : m.skip = false) {op : BasicOp} {a b : Operand}
    (hwrites : op.writesTarget = true) (h : step m = .ok (.basic op a b) m') :
    (∃ t o, m.guest.Computes m'.guest op a b t o) ∧
      ExactInDoubleWords (a.value m.registers m.memory (m.registers.pc + 1))
        (b.value m.registers m.memory (m.registers.pc + (1 + a.ownWords))) :=
  ⟨Guest.computes_of_step hskip hwrites (guest_step_of_ok h), exactInDoubleWords _ _⟩

/-- A product whose target is the overflow register, which keeps the word above the result. -/
theorem step_computes_product_in_overflow :
    ∃ m m' : Machine Unit, m.skip = false ∧ BasicOp.mul.writesTarget = true ∧
      step m = .ok (.basic .mul (.register .o) (.literal 31)) m' ∧
      m.registers.o = 0xffff ∧ m'.registers.o = 0x001e ∧
      (∃ t o, m.guest.Computes m'.guest .mul (.register .o) (.literal 31) t o) ∧
      ExactInDoubleWords 0xffff 31 :=
  ⟨{ registers := { o := 0xffff }, bus := ⟨⟨#[0xfdd4], by decide⟩, ()⟩ }, _, rfl, rfl, rfl, rfl,
    rfl, step_computes rfl rfl rfl⟩

end Machine

end WordMachine
