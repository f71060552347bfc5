import WordMachine.Proofs.Atomicity
import WordMachine.Proofs.History

/-!
# Tests and what they skip

A test stores nothing, and only decides whether the next instruction is executed.  An instruction
that is skipped is read in full, so the program counter passes over all of it, and nothing else
comes of it, whatever it is.  `PassesOver` says this of one step or of two.
-/

namespace WordMachine

theorem Instruction.effect_of_test
    {registers : Registers} {memory : Memory} {op : BasicOp} {a b : Operand} {passed : Bool}
    (h : (basic op a b).outcome? registers memory = some (.test passed)) :
    (basic op a b).effect registers memory =
      .completes ((basic op a b).moved registers) none (!passed) := by
  have happly := Option.some.inj h
  simp only [effect, BasicOp.effect, Operand.resolved, happly]
  rfl

namespace Machine

variable {σ : Type} [Watcher σ] {m m₁ m₂ : Machine σ}

/-- The second machine has come from the first by steps over so many words, of which only the first
instruction has moved the stack pointer; no word is stored. -/
structure PassesOver
    (first : Instruction) (steps length : Nat) (m m' : Machine σ) : Prop where
  pc : m'.registers.pc = m.registers.pc + UInt16.ofNat length
  stack : m'.registers.sp =
    m.registers.sp + UInt16.ofNat (first.operands.count .pop) -
      UInt16.ofNat (first.operands.count .push)
  others : ∀ r, r ≠ .pc → r ≠ .sp → m'.registers.get r = m.registers.get r
  memory : m'.memory = m.memory
  counted : m'.steps = m.steps + steps
  silent : ∃ events, Event.stores events = [] ∧ Bus.Hears events m.bus m'.bus

/-- A step that makes no store is told of without one. -/
theorem silent_of_step
    {instruction : Instruction} (h : step m = .ok instruction m₁) (hstores : m.guest.stores = []) :
    ∃ events, Event.stores events = [] ∧ Bus.Hears events m.bus m₁.bus := by
  obtain ⟨events, hhears, heq⟩ := step_hears m
  rw [h] at hhears
  exact ⟨events, heq.trans hstores, hhears⟩

/-- A test is completed and only moves on, moves the stack pointer by its own operands, and asks for
a skip if it fails. -/
theorem step_of_test
    (hfull : m.memory.capacity = addressSpace) (hskip : m.skip = false)
    {op : BasicOp} {a b : Operand} {passed : Bool}
    (hinstruction : m.guest.instruction = .basic op a b)
    (htest : (Instruction.basic op a b).outcome? m.registers m.memory = some (.test passed)) :
    ∃ m₁, step m = .ok (.basic op a b) m₁ ∧
      PassesOver (.basic op a b) 1 (Instruction.basic op a b).length m m₁ ∧
      m₁.skip = !passed := by
  have hfind := Memory.find?_lacks_of_full hfull m.guest.accesses
  have heffect : m.guest.effect =
      .completes ((Instruction.basic op a b).moved m.registers) none (!passed) := by
    rw [Guest.effect, hinstruction]
    exact Instruction.effect_of_test htest
  have hguest := Guest.step_of_completes hfind hskip heffect
  rw [hinstruction] at hguest
  obtain ⟨m₁, hstep, hm₁⟩ := exists_step_of_guest_step hguest
  have hjumps : (Instruction.basic op a b).jumps = false := by
    have hwrites := BasicOp.writesTarget_of_apply_eq_test (Option.some.inj htest)
    simp [Instruction.jumps, hwrites]
  have hregisters : m₁.registers =
      ((Instruction.basic op a b).moved m.registers).advance (Instruction.basic op a b).words :=
    (congrArg Guest.registers hm₁).trans (if_neg (ne_true_of_eq_false hjumps))
  have hstores : m.guest.stores = [] := by
    simp only [Guest.stores, heffect]
    split <;> simp_all
  refine ⟨m₁, hstep, ?_, congrArg Guest.skip hm₁⟩
  constructor
  case pc =>
    rw [hregisters]
    have hpc := (Instruction.basic op a b).get_moved_of_ne m.registers (r := .pc) (by decide)
    exact congrArg (· + (Instruction.basic op a b).words) hpc
  case stack =>
    rw [hregisters]
    exact (Instruction.basic op a b).sp_moved m.registers
  case others =>
    intro r hpc hsp
    rw [hregisters, Registers.get_advance_of_ne _ _ hpc, Instruction.get_moved_of_ne _ _ hsp]
  case memory => exact congrArg Guest.memory hm₁
  case counted => exact congrArg Guest.steps hm₁
  case silent => exact silent_of_step hstep hstores

/-- A skipped instruction is passed over, whatever it is. -/
theorem PassesOver.step_of_skip
    {first : Instruction} {steps length : Nat} (h : PassesOver first steps length m m₁)
    (hfull : m.memory.capacity = addressSpace) (hskip : m₁.skip = true) :
    ∃ m₂ next, step m₁ = .ok next m₂ ∧
      next = .decode (m.memory.wordAt (m.registers.pc + UInt16.ofNat length)) ∧
      PassesOver first (steps + 1) (length + next.length) m m₂ ∧ m₂.skip = false := by
  have hfull₁ : m₁.memory.capacity = addressSpace := by
    rw [h.memory]
    exact hfull
  have hfind := Memory.find?_lacks_of_full hfull₁ m₁.guest.accesses
  obtain ⟨m₂, hstep, hm₂⟩ := exists_step_of_guest_step (Guest.step_of_skip hfind hskip)
  have hregisters : m₂.registers = m₁.registers.advance m₁.guest.instruction.words :=
    congrArg Guest.registers hm₂
  have hstores : m₁.guest.stores = [] := by
    have hguest : m₁.guest.skip = true := hskip
    simp [Guest.stores, hguest]
  have hnext : m₁.guest.instruction =
      .decode (m.memory.wordAt (m.registers.pc + UInt16.ofNat length)) := by
    rw [← h.pc, ← h.memory]
    rfl
  refine ⟨m₂, m₁.guest.instruction, hstep, hnext, ?_, congrArg Guest.skip hm₂⟩
  constructor
  case pc =>
    rw [hregisters, UInt16.ofNat_add, ← UInt16.add_assoc, ← h.pc]
    rfl
  case stack =>
    rw [hregisters]
    exact h.stack
  case others =>
    intro r hpc hsp
    rw [hregisters, Registers.get_advance_of_ne _ _ hpc, h.others r hpc hsp]
  case memory => exact (congrArg Guest.memory hm₂).trans h.memory
  case counted =>
    have hsteps : m₂.steps = m₁.steps + 1 := congrArg Guest.steps hm₂
    rw [hsteps, h.counted, Nat.add_assoc]
  case silent =>
    obtain ⟨first, hfirst, hhears⟩ := h.silent
    obtain ⟨second, hsecond, hhears'⟩ := silent_of_step hstep hstores
    refine ⟨first ++ second, ?_, hhears.trans hhears'⟩
    rw [Event.stores_append, hfirst, hsecond, List.append_nil]

/-- A test that fails makes the machine pass over the next instruction, whatever it is, and over no
more: this instruction is read in full, and nothing comes of it.  After a test that passes the next
instruction is executed, or fails, like any other. -/
theorem steps_of_condition
    (hfull : m.memory.capacity = addressSpace) (hskip : m.skip = false)
    {op : BasicOp} {a b : Operand} {condition : Word → Word → Prop}
    (hcondition : op.condition? = some condition)
    (hinstruction : Instruction.decode (m.memory.wordAt m.registers.pc) = .basic op a b) :
    let test := Instruction.basic op a b
    let target := a.value m.registers m.memory (m.registers.pc + 1)
    let source := b.value m.registers m.memory (m.registers.pc + (1 + a.ownWords))
    (¬condition target source →
      ∃ m₁ m₂ next, step m = .ok test m₁ ∧ step m₁ = .ok next m₂ ∧
        next = .decode (m.memory.wordAt (m.registers.pc + UInt16.ofNat test.length)) ∧
        PassesOver test 2 (test.length + next.length) m m₂ ∧ m₂.skip = false) ∧
    (condition target source →
      ∃ m₁, step m = .ok test m₁ ∧ PassesOver test 1 test.length m m₁ ∧ m₁.skip = false ∧
        (∀ next m₂, step m₁ = .ok next m₂ → Frame m₁.guest m₂.guest next) ∧
        ∀ fault m₂, step m₁ = .error fault m₂ → m₂.guest = m₁.guest ∧
          ∃ op a b, m₁.guest.instruction = .basic op a b ∧ fault = .invalidTarget a.code) := by
  intro test target source
  obtain ⟨passed, happly, hpassed⟩ := BasicOp.apply_of_condition? hcondition target source
  obtain ⟨m₁, hstep, hpasses, hskip₁⟩ :=
    step_of_test hfull hskip hinstruction (congrArg some happly)
  constructor
  · intro hnot
    have hfailed : passed = false := Bool.eq_false_iff.mpr fun htrue => hnot (hpassed.mp htrue)
    rw [hfailed] at hskip₁
    obtain ⟨m₂, next, hstep₂, hnext, hpasses₂, hskip₂⟩ := hpasses.step_of_skip hfull hskip₁
    exact ⟨m₁, m₂, next, hstep, hstep₂, hnext, hpasses₂, hskip₂⟩
  · intro hholds
    rw [hpassed.mpr hholds] at hskip₁
    have hfull₁ : m₁.memory.capacity = addressSpace := by
      rw [hpasses.memory]
      exact hfull
    exact ⟨m₁, hstep, hpasses, hskip₁,
      fun next m₂ hnext => Guest.frame_of_step hskip₁ (guest_step_of_ok hnext),
      fun fault m₂ hfault => step_error_of_full hfull₁ hfault⟩

/-- A test of three words at the end of memory that fails, and one like it after it, which is
skipped. -/
theorem steps_of_condition_wrapping :
    let memory : Memory := ⟨Array.replicate 65536 0x7ded, Nat.le_of_eq Array.size_replicate⟩
    let m : Machine Unit := { registers := { pc := 0xfffe }, bus := ⟨memory, ()⟩ }
    let test := Instruction.basic .ifn .absolute .immediate
    memory.capacity = addressSpace ∧ Instruction.decode (memory.wordAt 0xfffe) = test ∧
      ∃ m₁ m₂, step m = .ok test m₁ ∧ step m₁ = .ok test m₂ ∧
        PassesOver test 2 6 m m₂ ∧ m₂.skip = false ∧ m₂.registers.pc = 4 := by
  intro memory m test
  have hfull : memory.capacity = addressSpace := Array.size_replicate
  have hword (address : Word) : memory.wordAt address = 0x7ded := by
    have hlt := address.toNat_lt
    simp [memory, Memory.wordAt, Memory.getD, Memory.get?, hlt]
  have hinstruction : Instruction.decode (memory.wordAt 0xfffe) = test := by
    rw [hword]
    rfl
  have htarget (start : Word) : Operand.absolute.value m.registers memory start = 0x7ded :=
    hword (memory.wordAt start)
  have hsource (start : Word) : Operand.immediate.value m.registers memory start = 0x7ded :=
    hword start
  obtain ⟨m₁, m₂, next, hstep₁, hstep₂, hnext, hpasses, hskip⟩ :=
    (steps_of_condition (m := m) hfull rfl rfl hinstruction).1
      fun hne => hne ((htarget _).trans (hsource _).symm)
  obtain rfl : next = test := by
    rw [hnext]
    exact (congrArg Instruction.decode (hword _)).trans rfl
  have hpc : (0xfffe : Word) + UInt16.ofNat 6 = 4 := by decide
  exact ⟨hfull, hinstruction, m₁, m₂, hstep₁, hstep₂, hpasses, hskip, hpasses.pc.trans hpc⟩

end Machine

end WordMachine
