import WordMachine.Proofs.Guest
import WordMachine.Proofs.Laws

/-!
# What a completed step changes

A step that skips nothing changes at most one word of memory, moves the stack pointer by its stack
operands, sets its target, and moves on by its length unless it jumps.  `Frame` says this, with
every place and value taken from registers and memory as they were before the step.
-/

namespace WordMachine

namespace Registers

theorem get_overflow
    (registers : Registers) {word : Option Word} {r : Register} (h : r = .o → word = none) :
    (registers.overflow word).get r = registers.get r := by
  cases word with
  | none => rfl
  | some word =>
    apply registers.get_set_of_ne word
    intro hr
    exact Option.some_ne_none word (h hr)

theorem sp_moveStack (registers : Registers) (operand : Operand) :
    (registers.moveStack operand).sp =
      registers.sp + UInt16.ofNat ([operand].count .pop) -
        UInt16.ofNat ([operand].count .push) := by
  cases operand with
  | pop => exact (UInt16.sub_zero _).symm
  | push =>
    change registers.sp - 1 = registers.sp + 0 - 1
    rw [UInt16.add_zero]
  | _ =>
    change registers.sp = registers.sp + 0 - 0
    rw [UInt16.add_zero, UInt16.sub_zero]

theorem get_advance_of_ne
    (registers : Registers) (words : Word) {r : Register} (hne : r ≠ .pc) :
    (registers.advance words).get r = registers.get r :=
  registers.get_set_of_ne (registers.pc + words) hne

end Registers

theorem Operand.eq_register_of_place
    {registers : Registers} {memory : Memory} {start : Word} {operand : Operand} {r : Register}
    (h : operand.place registers memory start = .register r) : operand = .register r := by
  cases operand with
  | register s =>
    injection h with hs
    rw [hs]
  | _ => simp [place, address?] at h

/-- The result to be stored, if the opcode has one. -/
def Outcome.result? : Outcome → Option Word
  | store result _ _ => some result
  | test _ => none

theorem Operand.address?_of_place
    {registers : Registers} {memory : Memory} {start address : Word} {operand : Operand}
    (h : operand.place registers memory start = .memory address) :
    operand.address? registers (memory.wordAt start) = some address := by
  cases operand <;> simp_all [place, address?]

namespace Instruction

/-- The operand that the instruction stores its result to, if its opcode has one. -/
def target? : Instruction → Option Operand
  | basic op a _ => if op.writesTarget then some a else none
  | special _ _ => none

/-- Whether the instruction pushes the address of the next one and jumps. -/
def calls : Instruction → Bool
  | special .jsr _ => true
  | _ => false

/-- What the opcode of a basic instruction makes of its operands. -/
def outcome? (registers : Registers) (memory : Memory) : Instruction → Option Outcome
  | basic op a b =>
    some (op.apply (a.value registers memory (registers.pc + 1))
      (b.value registers memory (registers.pc + (1 + a.ownWords))))
  | special _ _ => none

/-- Whether the instruction writes the overflow register other than as its target. -/
def overflows (registers : Registers) (memory : Memory) : Instruction → Bool
  | basic op a b =>
    op.overflows (a.value registers memory (registers.pc + 1))
      (b.value registers memory (registers.pc + (1 + a.ownWords)))
  | special _ _ => false

/-- The address in memory that the instruction stores to, if it does: that of its target, or the one
that a call pushes to. -/
def slot? (registers : Registers) (memory : Memory) : Instruction → Option Word
  | basic op a _ =>
    if op.writesTarget then a.address? registers (memory.wordAt (registers.pc + 1)) else none
  | special .jsr a => some (registers.callSlot a)
  | special (.reserved _) _ => none

/-- The word that the instruction stores: the result of its opcode, or the address of the next
instruction if it is a call. -/
def stored? (registers : Registers) (memory : Memory) : Instruction → Option Word
  | special .jsr a => some (registers.pc + (special .jsr a).words)
  | instruction => (instruction.outcome? registers memory).bind Outcome.result?

/-- Whether the opcode gives a result of two words, of which one goes to the overflow register. -/
def splits : Instruction → Bool
  | basic op _ _ => op.splits
  | special _ _ => false

/-- The word is the one that the instruction is to store: the result by the law of its opcode, or
the address of the next instruction if it is a call. -/
def Stores (registers : Registers) (memory : Memory) (word : Word) : Instruction → Prop
  | basic op a b =>
    ∃ o : Word, op.Law (a.value registers memory (registers.pc + 1)).toNat
      (b.value registers memory (registers.pc + (1 + a.ownWords))).toNat
      registers.o.toNat word.toNat o.toNat
  | special .jsr a => word = registers.pc + UInt16.ofNat (special .jsr a).length
  | special (.reserved _) _ => False

/-- The instruction is a test, and its condition does not hold of the values of its operands. -/
def FailsTest (registers : Registers) (memory : Memory) : Instruction → Prop
  | basic op a b =>
    ∃ condition, op.condition? = some condition ∧
      ¬condition (a.value registers memory (registers.pc + 1))
        (b.value registers memory (registers.pc + (1 + a.ownWords)))
  | special _ _ => False

/-- What the machine stores is what it is to store. -/
theorem stores_of_stored?
    {registers : Registers} {memory : Memory} {instruction : Instruction} {word : Word}
    (h : instruction.stored? registers memory = some word) :
    instruction.Stores registers memory word := by
  cases instruction with
  | basic op a b =>
    simp only [stored?, outcome?, Option.bind_some] at h
    cases happly : op.apply (a.value registers memory (registers.pc + 1))
        (b.value registers memory (registers.pc + (1 + a.ownWords))) with
    | test passed =>
      rw [happly] at h
      contradiction
    | store result before after =>
      rw [happly] at h
      obtain rfl : result = word := Option.some.inj h
      exact ⟨_, BasicOp.law_of_apply_eq_store happly registers.o⟩
  | special op a =>
    cases op with
    | jsr => exact (Option.some.inj h).symm
    | reserved code => contradiction

/-- A move stores the value of its source, and nothing else. -/
theorem stores_set
    {registers : Registers} {memory : Memory} {target source : Operand} {word : Word}
    (h : (basic .set target source).Stores registers memory word) :
    word = source.value registers memory (registers.pc + (1 + target.ownWords)) := by
  obtain ⟨o, hword, -⟩ := h
  exact UInt16.toNat_inj.mp hword

theorem failsTest_iff
    {registers : Registers} {memory : Memory} {instruction : Instruction} :
    instruction.FailsTest registers memory ↔
      instruction.outcome? registers memory = some (.test false) := by
  cases instruction with
  | basic op a b =>
    rw [FailsTest, outcome?, Option.some_inj]
    constructor
    · rintro ⟨condition, hcondition, hnot⟩
      obtain ⟨passed, happly, hpassed⟩ := BasicOp.apply_of_condition? hcondition
        (a.value registers memory (registers.pc + 1))
        (b.value registers memory (registers.pc + (1 + a.ownWords)))
      rw [happly, Bool.eq_false_iff.mpr (mt hpassed.mp hnot)]
    · intro happly
      obtain ⟨condition, hcondition, hpassed⟩ := BasicOp.condition?_of_apply_eq_test happly
      exact ⟨condition, hcondition, fun hholds => Bool.false_ne_true (hpassed.mpr hholds)⟩
  | special op a => exact iff_of_false id nofun

/-- The registers after the operands of the instruction have moved the stack pointer. -/
def moved (registers : Registers) : Instruction → Registers
  | basic _ a b => (registers.moveStack a).moveStack b
  | special _ a => registers.moveStack a

theorem get_moved_of_ne
    (registers : Registers) (instruction : Instruction) {r : Register} (hne : r ≠ .sp) :
    (instruction.moved registers).get r = registers.get r := by
  cases instruction with
  | basic op a b =>
    rw [moved, Registers.get_moveStack_of_ne _ b hne, Registers.get_moveStack_of_ne _ a hne]
  | special op a => exact registers.get_moveStack_of_ne a hne

theorem sp_moved (registers : Registers) (instruction : Instruction) :
    (instruction.moved registers).sp =
      registers.sp + UInt16.ofNat (instruction.operands.count .pop) -
        UInt16.ofNat (instruction.operands.count .push) := by
  cases instruction with
  | basic op a b =>
    have hcount (operand : Operand) :
        [a, b].count operand = [a].count operand + [b].count operand := by
      rw [← List.count_append, List.singleton_append]
    rw [moved, operands, Registers.sp_moveStack, Registers.sp_moveStack, hcount, hcount,
      UInt16.ofNat_add, UInt16.ofNat_add]
    grind
  | special op a => exact registers.sp_moveStack a

theorem jumps_iff {instruction : Instruction} :
    instruction.jumps = true ↔
      instruction.target? = some (.register .pc) ∨ instruction.calls = true := by
  cases instruction with
  | basic op a b => cases hwrites : op.writesTarget <;> simp [jumps, target?, calls, hwrites]
  | special op a => cases op <;> simp [jumps, target?, calls]

theorem get_landed_of_ne
    (registers : Registers) (instruction : Instruction) {r : Register} (hne : r ≠ .pc) :
    (instruction.landed registers).get r = registers.get r := by
  rw [landed]
  split
  · rfl
  · exact registers.get_advance_of_ne _ hne

/-- The ways in which an instruction is completed: with the registers, the store to memory and the
pending skip that it leaves. -/
inductive Completion (registers : Registers) (memory : Memory) :
    Instruction → Registers → Option (Word × Word) → Bool → Prop
  | test {op : BasicOp} {a b : Operand} {passed : Bool}
      (h : (basic op a b).outcome? registers memory = some (.test passed)) :
      Completion registers memory (basic op a b) ((basic op a b).moved registers) none (!passed)
  | register {op : BasicOp} {r : Register} {b : Operand} {result : Word}
      {before after : Option Word}
      (h : (basic op (.register r) b).outcome? registers memory =
        some (.store result before after)) :
      Completion registers memory (basic op (.register r) b)
        (((((basic op (.register r) b).moved registers).overflow before).set r result).overflow
          after)
        none false
  | memory {op : BasicOp} {a b : Operand} {address result : Word} {before after : Option Word}
      (h : (basic op a b).outcome? registers memory = some (.store result before after))
      (haddress : a.address? registers (memory.wordAt (registers.pc + 1)) = some address) :
      Completion registers memory (basic op a b)
        ((((basic op a b).moved registers).overflow before).overflow after)
        (some (address, result)) false
  | call {a : Operand} (hhit : memory.lacks (registers.callSlot a) = false) :
      Completion registers memory (special .jsr a)
        ((registers.set .sp (registers.callSlot a)).set .pc
          (a.value registers memory (registers.pc + 1)))
        (some (registers.callSlot a, registers.pc + (special .jsr a).words)) false
  | reserved {code : UInt8} {a : Operand} :
      Completion registers memory (special (.reserved code) a)
        ((special (.reserved code) a).moved registers) none false

theorem completion_of_effect
    {registers registers' : Registers} {memory : Memory} {instruction : Instruction}
    {stored : Option (Word × Word)} {skip : Bool}
    (h : instruction.effect registers memory = .completes registers' stored skip) :
    instruction.Completion registers memory registers' stored skip := by
  cases instruction with
  | basic op a b =>
    simp only [effect, BasicOp.effect] at h
    split at h
    · rename_i passed happly
      cases h
      exact .test (congrArg some happly)
    · rename_i result before after r happly hplace
      cases h
      obtain rfl := Operand.eq_register_of_place hplace
      exact .register (congrArg some happly)
    · rename_i result before after address happly hplace
      cases h
      exact .memory (congrArg some happly) (Operand.address?_of_place hplace)
    · contradiction
  | special op a =>
    cases op with
    | jsr =>
      simp only [effect, SpecialOp.effect] at h
      split at h
      · contradiction
      · rename_i hhit
        cases h
        change Completion registers memory (special .jsr a)
          ((registers.moveStack a).push.2.set .pc (a.value registers memory (registers.pc + 1)))
          (some (registers.callSlot a, registers.pc + (special .jsr a).words)) false
        rw [registers.push_moveStack a]
        exact .call (Bool.eq_false_iff.mpr hhit)
    | reserved code =>
      cases h
      exact .reserved

namespace Completion

variable {registers registers' : Registers} {memory : Memory} {instruction : Instruction}
  {stored : Option (Word × Word)} {skip : Bool}

/-- The store to memory, if there is one, is of the stored word at the slot. -/
theorem store_eq (h : instruction.Completion registers memory registers' stored skip) :
    instruction.slot? registers memory = stored.map Prod.fst ∧
      ∀ store ∈ stored, instruction.stored? registers memory = some store.2 := by
  cases h with
  | test h =>
    have hwrites := BasicOp.writesTarget_of_apply_eq_test (Option.some.inj h)
    exact ⟨if_neg (ne_true_of_eq_false hwrites), fun store hstore => by contradiction⟩
  | register h =>
    have hwrites := BasicOp.writesTarget_of_apply_eq_store (Option.some.inj h)
    exact ⟨if_pos hwrites, fun store hstore => by contradiction⟩
  | memory h haddress =>
    have hwrites := BasicOp.writesTarget_of_apply_eq_store (Option.some.inj h)
    refine ⟨(if_pos hwrites).trans haddress, fun store hstore => ?_⟩
    obtain rfl := Option.mem_some_iff.mp hstore
    simp only [stored?, h]
    rfl
  | call hhit =>
    refine ⟨rfl, fun store hstore => ?_⟩
    obtain rfl := Option.mem_some_iff.mp hstore
    rfl
  | reserved => exact ⟨rfl, fun store hstore => by contradiction⟩

theorem stored?_of_slot?
    (h : instruction.Completion registers memory registers' stored skip) {slot : Word}
    (hslot : instruction.slot? registers memory = some slot) :
    ∃ word, instruction.stored? registers memory = some word := by
  obtain ⟨hstore, hword⟩ := h.store_eq
  cases stored with
  | none =>
    rw [hstore] at hslot
    contradiction
  | some store => exact ⟨store.2, hword store rfl⟩

/-- Memory has the word that is stored to, if it has every word that is read. -/
theorem hit
    (h : instruction.Completion registers memory registers' stored skip)
    (hreached : ∀ address ∈ instruction.accesses registers memory, memory.lacks address = false) :
    ∀ store ∈ stored, memory.lacks store.1 = false := by
  intro store hstore
  cases h with
  | memory h haddress =>
    obtain rfl := Option.mem_some_iff.mp hstore
    apply hreached
    simp [accesses, Operand.accesses, haddress]
  | call hhit =>
    obtain rfl := Option.mem_some_iff.mp hstore
    exact hhit
  | _ => contradiction

/-- A register that is not the target is as the stack operands left it, unless a call or an overflow
writes it. -/
theorem get_of_ne_target
    (h : instruction.Completion registers memory registers' stored skip) {r : Register}
    (htarget : instruction.target? ≠ some (.register r))
    (hcall : instruction.calls = true → r ≠ .sp ∧ r ≠ .pc)
    (hoverflows : r = .o → instruction.overflows registers memory = false) :
    registers'.get r = (instruction.moved registers).get r := by
  cases h with
  | test h => rfl
  | register h =>
    have hwords (hr : r = .o) :=
      BasicOp.no_overflow_of_apply_eq_store (Option.some.inj h) (hoverflows hr)
    have hwrites := BasicOp.writesTarget_of_apply_eq_store (Option.some.inj h)
    have hne : r ≠ _ := fun hr => htarget (by rw [hr]; exact if_pos hwrites)
    rw [Registers.get_overflow _ fun hr => (hwords hr).2, Registers.get_set_of_ne _ _ hne,
      Registers.get_overflow _ fun hr => (hwords hr).1]
  | memory h haddress =>
    have hwords (hr : r = .o) :=
      BasicOp.no_overflow_of_apply_eq_store (Option.some.inj h) (hoverflows hr)
    rw [Registers.get_overflow _ fun hr => (hwords hr).2,
      Registers.get_overflow _ fun hr => (hwords hr).1]
  | call hhit =>
    obtain ⟨hsp, hpc⟩ := hcall rfl
    rw [Registers.get_set_of_ne _ _ hpc, Registers.get_set_of_ne _ _ hsp,
      get_moved_of_ne _ _ hsp]
  | reserved => rfl

/-- A register that is the target holds the stored word, unless it is the overflow register and is
written again. -/
theorem get_target
    (h : instruction.Completion registers memory registers' stored skip) {r : Register}
    (htarget : instruction.target? = some (.register r))
    (hsplits : r = .o → instruction.splits = false) :
    instruction.stored? registers memory = some (registers'.get r) := by
  cases h with
  | test h =>
    have hwrites := BasicOp.writesTarget_of_apply_eq_test (Option.some.inj h)
    simp [target?, hwrites] at htarget
  | @register op s b result before after h =>
    have hwrites := BasicOp.writesTarget_of_apply_eq_store (Option.some.inj h)
    obtain rfl : s = r := by simpa [target?, hwrites] using htarget
    have hafter (hr : s = .o) : after = none := by
      have hsome : op.splits = after.isSome :=
        BasicOp.splits_of_apply_eq_store (Option.some.inj h)
      simpa [hsome, splits] using hsplits hr
    rw [Registers.get_overflow _ hafter, Registers.get_set_self]
    simp only [stored?, h]
    rfl
  | memory h haddress =>
    have hwrites := BasicOp.writesTarget_of_apply_eq_store (Option.some.inj h)
    obtain rfl : _ = Operand.register r := by simpa [target?, hwrites] using htarget
    contradiction
  | call hhit => contradiction
  | reserved => contradiction

/-- A call leaves the stack pointer one below where its operand left it, and the program counter
at the value of its operand. -/
theorem get_of_calls
    (h : instruction.Completion registers memory registers' stored skip)
    (hcalls : instruction.calls = true) :
    registers'.sp = (instruction.moved registers).sp - 1 ∧
      ∀ a, instruction = .special .jsr a →
        registers'.pc = a.value registers memory (registers.pc + 1) := by
  cases h with
  | call hhit =>
    refine ⟨rfl, fun a ha => ?_⟩
    injection ha with _ ha
    rw [← ha]
    rfl
  | _ => contradiction

theorem skip_iff (h : instruction.Completion registers memory registers' stored skip) :
    skip = true ↔ instruction.outcome? registers memory = some (.test false) := by
  cases h with
  | test h => simp [h]
  | register h => simp [h]
  | memory h haddress => simp [h]
  | call hhit => simp [outcome?]
  | reserved => simp [outcome?]

theorem landed_target
    (h : instruction.Completion registers memory registers' stored skip) {r : Register}
    (htarget : instruction.target? = some (.register r))
    (hsplits : r = .o → instruction.splits = false) :
    instruction.stored? registers memory = some ((instruction.landed registers').get r) := by
  rw [h.get_target htarget hsplits]
  by_cases hpc : r = .pc
  · rw [landed, if_pos (jumps_iff.mpr (.inl (hpc ▸ htarget)))]
  · rw [get_landed_of_ne _ _ hpc]

theorem landed_general
    (h : instruction.Completion registers memory registers' stored skip) {r : Register}
    (hr : r ∈ Register.general) (htarget : instruction.target? ≠ some (.register r)) :
    (instruction.landed registers').get r = registers.get r := by
  obtain ⟨hsp, hpc, ho⟩ : r ≠ .sp ∧ r ≠ .pc ∧ r ≠ .o := by
    refine ⟨?_, ?_, ?_⟩ <;> rintro rfl <;> simp [Register.general] at hr
  rw [get_landed_of_ne _ _ hpc,
    h.get_of_ne_target htarget (fun _ => ⟨hsp, hpc⟩) fun heq => (ho heq).elim,
    get_moved_of_ne _ _ hsp]

theorem landed_overflow
    (h : instruction.Completion registers memory registers' stored skip)
    (htarget : instruction.target? ≠ some (.register .o))
    (hoverflows : instruction.overflows registers memory = false) :
    (instruction.landed registers').get .o = registers.get .o := by
  have hcall : instruction.calls = true → Register.o ≠ .sp ∧ Register.o ≠ .pc := by
    intro _
    decide
  rw [get_landed_of_ne _ _ (by decide), h.get_of_ne_target htarget hcall fun _ => hoverflows,
    get_moved_of_ne _ _ (by decide)]

theorem landed_stack
    (h : instruction.Completion registers memory registers' stored skip)
    (htarget : instruction.target? ≠ some (.register .sp)) :
    (instruction.landed registers').get .sp =
      (instruction.moved registers).sp - if instruction.calls then 1 else 0 := by
  rw [get_landed_of_ne _ _ (by decide)]
  cases hcalls : instruction.calls with
  | true => exact (h.get_of_calls hcalls).1
  | false =>
    have hcall : instruction.calls = true → Register.sp ≠ .sp ∧ Register.sp ≠ .pc := by
      simp [hcalls]
    rw [h.get_of_ne_target htarget hcall fun heq => by contradiction]
    exact (UInt16.sub_zero _).symm

theorem landed_called
    (h : instruction.Completion registers memory registers' stored skip) {a : Operand}
    (hinstruction : instruction = .special .jsr a) :
    (instruction.landed registers').pc = a.value registers memory (registers.pc + 1) := by
  have hcalls : instruction.calls = true := by
    rw [hinstruction]
    rfl
  rw [landed, if_pos (jumps_iff.mpr (.inr hcalls))]
  exact (h.get_of_calls hcalls).2 a hinstruction

theorem landed_next
    (h : instruction.Completion registers memory registers' stored skip)
    (htarget : instruction.target? ≠ some (.register .pc)) (hcalls : instruction.calls = false) :
    (instruction.landed registers').pc = registers.pc + instruction.words := by
  have hjumps : ¬instruction.jumps = true := by
    rw [jumps_iff, hcalls]
    rintro (hpc | hcall)
    · exact htarget hpc
    · contradiction
  have hcall : instruction.calls = true → Register.pc ≠ .sp ∧ Register.pc ≠ .pc := by
    simp [hcalls]
  have hpc : registers'.get .pc = registers.get .pc := by
    rw [h.get_of_ne_target htarget hcall fun heq => by contradiction,
      get_moved_of_ne _ _ (by decide)]
  rw [landed, if_neg hjumps]
  exact congrArg (· + instruction.words) hpc

end Completion

end Instruction

/-- What a completed step that skips nothing does to what a program can observe.  Places and values
are those before the step. -/
structure Frame (guest guest' : Guest) (instruction : Instruction) : Prop where
  decoded : instruction = .decode (guest.memory.wordAt guest.registers.pc)
  memory : ∀ n,
    (∀ slot, instruction.slot? guest.registers guest.memory = some slot → n ≠ slot.toNat) →
      guest'.memory.get? n = guest.memory.get? n
  stored : ∀ slot, instruction.slot? guest.registers guest.memory = some slot →
    ∃ word, instruction.Stores guest.registers guest.memory word ∧
      guest'.memory.get? slot.toNat = some word
  target : ∀ r, instruction.target? = some (.register r) → (r = .o → instruction.splits = false) →
    instruction.Stores guest.registers guest.memory (guest'.registers.get r)
  general : ∀ r ∈ Register.general, instruction.target? ≠ some (.register r) →
    guest'.registers.get r = guest.registers.get r
  overflow : instruction.target? ≠ some (.register .o) →
    instruction.overflows guest.registers guest.memory = false →
      guest'.registers.o = guest.registers.o
  stack : instruction.target? ≠ some (.register .sp) →
    guest'.registers.sp =
      guest.registers.sp + UInt16.ofNat (instruction.operands.count .pop) -
        UInt16.ofNat (instruction.operands.count .push) -
        if instruction.calls then 1 else 0
  called : ∀ a, instruction = .special .jsr a →
    guest'.registers.pc = a.value guest.registers guest.memory (guest.registers.pc + 1)
  next : instruction.target? ≠ some (.register .pc) → instruction.calls = false →
    guest'.registers.pc = guest.registers.pc + UInt16.ofNat instruction.length
  counted : guest'.steps = guest.steps + 1
  skips : guest'.skip = true ↔ instruction.FailsTest guest.registers guest.memory

namespace Guest

/-- A completed step that skips nothing had every word that it read, and completed its
instruction. -/
theorem step_completed
    {guest guest' : Guest} {instruction : Instruction} (hskip : guest.skip = false)
    (h : guest.step = .ok instruction guest') :
    (∀ address ∈ guest.accesses, guest.memory.lacks address = false) ∧
    ∃ registers stored skip,
      guest.instruction.Completion guest.registers guest.memory registers stored skip ∧
      instruction = guest.instruction ∧
      guest' =
        ⟨guest.instruction.landed registers, guest.memory.putAll stored.toList,
          guest.steps + 1, skip⟩ := by
  rw [step] at h
  split at h
  · contradiction
  · rename_i hfind
    rw [if_neg (ne_true_of_eq_false hskip)] at h
    split at h
    · rename_i registers stored skip heffect
      injection h with hinstruction hguest
      refine ⟨by simpa using hfind, registers, stored, skip, ?_, hinstruction.symm, hguest.symm⟩
      exact Instruction.completion_of_effect heffect
    · contradiction

/-- The words of memory after a completion. -/
theorem get?_putAll_of_completion
    {registers registers' : Registers} {memory : Memory} {instruction : Instruction}
    {stored : Option (Word × Word)} {skip : Bool}
    (h : instruction.Completion registers memory registers' stored skip)
    (hhit : ∀ store ∈ stored, memory.lacks store.1 = false) (n : Nat) :
    (memory.putAll stored.toList).get? n =
      (instruction.slot? registers memory).elim (memory.get? n) fun slot =>
        if n = slot.toNat then instruction.stored? registers memory else memory.get? n := by
  obtain ⟨hslot, hword⟩ := h.store_eq
  cases stored with
  | none =>
    rw [hslot]
    rfl
  | some store =>
    rw [hslot, hword store rfl]
    have hlt := Memory.lacks_eq_false_iff.mp (hhit store rfl)
    change (memory.put store.1 store.2).get? n = if n = store.1.toNat then some store.2 else _
    rw [Memory.get?_put]
    by_cases hn : n = store.1.toNat
    · rw [if_pos ⟨hn, hn ▸ hlt⟩, if_pos hn]
    · rw [if_neg fun hboth => hn hboth.1, if_neg hn]

/-- The slot that the instruction stores to has the stored word after the step. -/
theorem stored_of_step
    {guest guest' : Guest} {instruction : Instruction} (hskip : guest.skip = false)
    (h : guest.step = .ok instruction guest') {slot : Word}
    (hslot : instruction.slot? guest.registers guest.memory = some slot) :
    ∃ word, instruction.stored? guest.registers guest.memory = some word ∧
      guest'.memory.get? slot.toNat = some word := by
  obtain ⟨hreached, registers, stored, skip, hcompletion, rfl, rfl⟩ := step_completed hskip h
  have hmemory := get?_putAll_of_completion hcompletion
    (hcompletion.hit fun address haddress => hreached address (List.mem_cons_of_mem _ haddress))
  obtain ⟨word, hword⟩ := hcompletion.stored?_of_slot? hslot
  refine ⟨word, hword, ?_⟩
  rw [hmemory, hslot]
  exact (if_pos rfl).trans hword

theorem frame_of_step
    {guest guest' : Guest} {instruction : Instruction} (hskip : guest.skip = false)
    (h : guest.step = .ok instruction guest') : Frame guest guest' instruction := by
  have hstored (slot : Word) (hslot : instruction.slot? guest.registers guest.memory = some slot) :=
    stored_of_step hskip h hslot
  obtain ⟨hreached, registers, stored, skip, hcompletion, rfl, rfl⟩ := step_completed hskip h
  have hmemory := get?_putAll_of_completion hcompletion
    (hcompletion.hit fun address haddress => hreached address (List.mem_cons_of_mem _ haddress))
  constructor
  case decoded => rfl
  case memory =>
    intro n hn
    rw [hmemory]
    cases hslot : guest.instruction.slot? guest.registers guest.memory with
    | none => rfl
    | some slot => exact if_neg (hn slot hslot)
  case stored =>
    intro slot hslot
    obtain ⟨word, hword, hget⟩ := hstored slot hslot
    exact ⟨word, Instruction.stores_of_stored? hword, hget⟩
  case target =>
    intro r htarget hsplits
    exact Instruction.stores_of_stored? (hcompletion.landed_target htarget hsplits)
  case general => exact fun r hr htarget => hcompletion.landed_general hr htarget
  case overflow => exact hcompletion.landed_overflow
  case stack =>
    intro htarget
    rw [← Instruction.sp_moved]
    exact hcompletion.landed_stack htarget
  case called => exact fun a hinstruction => hcompletion.landed_called hinstruction
  case next => exact hcompletion.landed_next
  case counted => rfl
  case skips => exact hcompletion.skip_iff.trans Instruction.failsTest_iff.symm

end Guest

namespace Machine

variable {σ : Type} [Watcher σ]

/-- A completed step that skips nothing changes just what `Frame` allows. -/
theorem step_frame
    {m m' : Machine σ} {instruction : Instruction} (hskip : m.skip = false)
    (h : step m = .ok instruction m') : Frame m.guest m'.guest instruction :=
  Guest.frame_of_step hskip (guest_step_of_ok h)

/-- A call with the top of the stack as its destination, which pushes to the word that it has taken
off; a move to the program counter; and a test that fails. -/
theorem step_frame_call_pop :
    (∃ m m' : Machine Unit, m.skip = false ∧ step m = .ok (.special .jsr .pop) m' ∧
      Frame m.guest m'.guest (.special .jsr .pop) ∧ m'.memory.get? 0 = some 1 ∧
      m'.registers = { pc := 0x6010 }) ∧
    (∃ m m' : Machine Unit, m.skip = false ∧
      step m = .ok (.basic .set (.register .pc) (.literal 5)) m' ∧
      Frame m.guest m'.guest (.basic .set (.register .pc) (.literal 5)) ∧
      m'.registers = { pc := 5 }) ∧
    ∃ m m' : Machine Unit, m.skip = false ∧
      step m = .ok (.basic .ife (.register .a) (.literal 3)) m' ∧
      Frame m.guest m'.guest (.basic .ife (.register .a) (.literal 3)) ∧
      m'.registers = { pc := 1 } ∧ m'.skip = true := by
  refine ⟨?_, ?_, ?_⟩
  · exact ⟨{ bus := ⟨⟨#[0x6010], by decide⟩, ()⟩ }, _, rfl, rfl, step_frame rfl rfl, rfl, rfl⟩
  · exact ⟨{ bus := ⟨⟨#[0x95c1], by decide⟩, ()⟩ }, _, rfl, rfl, step_frame rfl rfl, rfl⟩
  · exact ⟨{ bus := ⟨⟨#[0x8c0c], by decide⟩, ()⟩ }, _, rfl, rfl, step_frame rfl rfl, rfl, rfl⟩

end Machine

end WordMachine
