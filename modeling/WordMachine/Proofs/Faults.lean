import WordMachine.Proofs.Atomicity
import WordMachine.Proofs.Frame

/-!
# When a step fails

A step looks for words that memory lacks while it reads, also when its instruction is to be skipped.
Only an instruction that is executed can fail after that: at a literal that it is to store to, or at
the push of a call.  `Guest.fault?` is the first fault of this order that applies, and
`step_fails_iff` says that the step fails with it, and is completed if there is none.
-/

namespace WordMachine

/-- The fault of an access that memory lacks. -/
def Memory.missing (memory : Memory) (address : Word) : Fault :=
  .memory (.outOfRange address.toNat memory.capacity)

/-- Whether the operand is a literal, in the instruction word or in a word of its own. -/
def Operand.isLiteral : Operand → Bool
  | immediate | literal _ => true
  | _ => false

theorem Operand.place_eq_nowhere_iff
    {registers : Registers} {memory : Memory} {start : Word} {operand : Operand} :
    operand.place registers memory start = .nowhere ↔ operand.isLiteral = true := by
  cases operand <;> simp [place, address?, isLiteral]

/-- What keeps an instruction from being executed when its operands are read: a literal that it is
to store to, or a call whose push finds no word. -/
def Instruction.obstacle? (registers : Registers) (memory : Memory) : Instruction → Option Fault
  | basic op a _ =>
    if op.writesTarget && a.isLiteral then some (.invalidTarget a.code) else none
  | special .jsr a =>
    if memory.lacks (registers.callSlot a) then some (memory.missing (registers.callSlot a))
    else none
  | special (.reserved _) _ => none

/-- The fault of the next step, if it has one.  The addresses that are read come first, in the order
in which they are read: that of the instruction, then for each operand that of its own word and its
own address. -/
def Guest.fault? (guest : Guest) : Option Fault :=
  match guest.accesses.find? guest.memory.lacks with
  | some address => some (guest.memory.missing address)
  | none =>
    if guest.skip then none
    else guest.instruction.obstacle? guest.registers guest.memory

/-- An opcode whose target is no literal is completed. -/
theorem BasicOp.completes_of_place_ne_nowhere
    (op : BasicOp) (registers : Registers) {target source : Resolved}
    (hplace : target.place ≠ .nowhere) :
    ∃ registers' stored skip,
      op.effect registers target source = .completes registers' stored skip := by
  unfold BasicOp.effect
  split
  · exact ⟨_, _, _, rfl⟩
  · exact ⟨_, _, _, rfl⟩
  · exact ⟨_, _, _, rfl⟩
  · rename_i hnowhere
    exact (hplace hnowhere).elim

/-- A test is completed, whatever its target is. -/
theorem BasicOp.completes_of_not_writesTarget
    {op : BasicOp} (registers : Registers) {target source : Resolved}
    (hwrites : op.writesTarget = false) :
    ∃ registers' stored skip,
      op.effect registers target source = .completes registers' stored skip := by
  cases happly : op.apply target.value source.value with
  | test passed =>
    simp only [BasicOp.effect, happly]
    exact ⟨_, _, _, rfl⟩
  | store result before after =>
    rw [writesTarget_of_apply_eq_store happly] at hwrites
    contradiction

/-- An opcode that stores its result fails at a literal. -/
theorem BasicOp.fails_of_place_eq_nowhere
    {op : BasicOp} (registers : Registers) {target source : Resolved}
    (hwrites : op.writesTarget = true) (hplace : target.place = .nowhere) :
    op.effect registers target source =
      .fails (.invalidTarget target.operand.code) registers := by
  cases happly : op.apply target.value source.value with
  | test passed =>
    rw [writesTarget_of_apply_eq_test happly] at hwrites
    contradiction
  | store result before after => simp only [BasicOp.effect, happly, hplace]

namespace Instruction

variable {registers : Registers} {memory : Memory} {instruction : Instruction}

/-- An instruction without an obstacle is completed. -/
theorem completes_of_obstacle?_eq_none (h : instruction.obstacle? registers memory = none) :
    ∃ registers' stored skip,
      instruction.effect registers memory = .completes registers' stored skip := by
  cases instruction with
  | basic op a b =>
    by_cases hliteral : a.isLiteral = true
    · apply BasicOp.completes_of_not_writesTarget
      simpa [obstacle?, hliteral] using h
    · apply BasicOp.completes_of_place_ne_nowhere
      exact fun hplace => hliteral (Operand.place_eq_nowhere_iff.mp hplace)
  | special op a =>
    cases op with
    | jsr =>
      have hhit : ¬memory.lacks (registers.callSlot a) = true := by
        simpa [obstacle?] using h
      exact ⟨_, _, _, if_neg hhit⟩
    | reserved code => exact ⟨_, _, _, rfl⟩

/-- An instruction with an obstacle fails at it, with the program counter where it was. -/
theorem fails_of_obstacle?_eq_some
    {fault : Fault} (h : instruction.obstacle? registers memory = some fault) :
    ∃ registers', instruction.effect registers memory = .fails fault registers' ∧
      registers'.pc = registers.pc := by
  cases instruction with
  | basic op a b =>
    obtain ⟨⟨hwrites, hliteral⟩, rfl⟩ :
        (op.writesTarget = true ∧ a.isLiteral = true) ∧ .invalidTarget a.code = fault := by
      simpa [obstacle?] using h
    exact ⟨registers, BasicOp.fails_of_place_eq_nowhere registers hwrites
      (Operand.place_eq_nowhere_iff.mpr hliteral), rfl⟩
  | special op a =>
    cases op with
    | jsr =>
      obtain ⟨hlacks, rfl⟩ :
          memory.lacks (registers.callSlot a) = true ∧
            memory.missing (registers.callSlot a) = fault := by
        simpa [obstacle?] using h
      exact ⟨(registers.moveStack a).push.2, if_pos hlacks, registers.pc_moveStack a⟩
    | reserved code => contradiction

end Instruction

namespace Guest

variable {guest : Guest}

/-- A step without a fault has every word that it reads. -/
theorem reached_of_fault?_eq_none (h : guest.fault? = none) :
    ∀ address ∈ guest.accesses, guest.memory.lacks address = false := by
  rw [fault?] at h
  split at h
  · contradiction
  · rename_i hfind
    simpa using hfind

/-- A program sees a step without a fault completed. -/
theorem step_of_fault?_eq_none (h : guest.fault? = none) :
    ∃ guest', guest.step = .ok guest.instruction guest' := by
  rw [fault?] at h
  split at h
  · contradiction
  · rename_i hfind
    cases hskip : guest.skip with
    | true => exact ⟨_, step_of_skip hfind hskip⟩
    | false =>
      rw [if_neg (ne_true_of_eq_false hskip)] at h
      obtain ⟨registers, stored, skip, heffect⟩ := Instruction.completes_of_obstacle?_eq_none h
      exact ⟨_, step_of_completes hfind hskip heffect⟩

/-- A program sees a step with a fault fail with it, at the instruction that it still points to. -/
theorem step_of_fault?_eq_some {fault : Fault} (h : guest.fault? = some fault) :
    ∃ registers, guest.step = .error fault { guest with registers } ∧
      registers.pc = guest.registers.pc := by
  rw [fault?] at h
  split at h
  · rename_i address hfind
    obtain rfl := Option.some.inj h
    refine ⟨guest.registers, ?_, rfl⟩
    rw [step, hfind]
    rfl
  · rename_i hfind
    split at h
    · contradiction
    · rename_i hskip
      obtain ⟨registers, heffect, hpc⟩ := Instruction.fails_of_obstacle?_eq_some h
      exact ⟨registers, step_of_fails hfind (Bool.eq_false_iff.mpr hskip) heffect, hpc⟩

/-- With every word in memory only a literal that is to be stored to makes a step fail. -/
theorem fault?_of_full
    (hfull : guest.memory.capacity = addressSpace) {fault : Fault} (h : guest.fault? = some fault) :
    guest.skip = false ∧ ∃ op a b, guest.instruction = .basic op a b ∧ op.writesTarget = true ∧
      a.isLiteral = true ∧ fault = .invalidTarget a.code := by
  rw [fault?, Memory.find?_lacks_of_full hfull] at h
  cases hskip : guest.skip with
  | true => simp [hskip] at h
  | false =>
    refine ⟨rfl, ?_⟩
    simp only [hskip, Bool.false_eq_true, if_false] at h
    cases hinstruction : guest.instruction with
    | basic op a b =>
      rw [hinstruction] at h
      obtain ⟨⟨hwrites, hliteral⟩, hfault⟩ :
          (op.writesTarget = true ∧ a.isLiteral = true) ∧ .invalidTarget a.code = fault := by
        simpa [Instruction.obstacle?] using h
      exact ⟨op, a, b, rfl, hwrites, hliteral, hfault.symm⟩
    | special op a =>
      rw [hinstruction] at h
      cases op with
      | jsr => simp [Instruction.obstacle?, Memory.lacks_eq_false_of_full hfull] at h
      | reserved code => contradiction

end Guest

namespace Machine

variable {σ : Type} [Watcher σ]

/-- The machine fails in a step that a program sees fail. -/
theorem exists_step_error_of_guest_step
    {m : Machine σ} {fault : Fault} {guest : Guest} (h : m.guest.step = .error fault guest) :
    ∃ m', step m = .error fault m' ∧ m'.guest = guest := by
  rw [← guest_step] at h
  cases hstep : step m with
  | ok instruction m' => simp [hstep, mapState] at h
  | error fault' m' =>
    rw [hstep] at h
    injection h with hfault hguest
    subst hfault
    exact ⟨m', rfl, hguest⟩

/-- A store to a place that an operand was resolved to cannot fail: its word has been read. -/
theorem store_of_resolve
    {m m' : Machine σ} {operand : Operand} {target : Resolved}
    (hresolve : resolve operand m = .ok target m') (hplace : target.place ≠ .nowhere)
    {n : Machine σ} (hcapacity : n.memory.capacity = m.memory.capacity) (value : Word) :
    ∃ n', store target value n = .ok () n' := by
  have hlooks := looksAt_resolve m operand
  cases hfind : (operand.accesses m.registers m.memory (m.registers.pc + m.span)).find?
      m.memory.lacks with
  | some address =>
    obtain ⟨span, herror⟩ := hlooks.fails address hfind
    rw [herror] at hresolve
    contradiction
  | none =>
    rw [hlooks.proceeds hfind] at hresolve
    injection hresolve with htarget _
    cases hstored : target.place with
    | register r =>
      simp only [store, hstored]
      exact ⟨_, rfl⟩
    | memory address =>
      have hread : address ∈ operand.accesses m.registers m.memory (m.registers.pc + m.span) := by
        apply Operand.mem_accesses_of_place
        rw [← htarget] at hstored
        exact hstored
      have hhit : n.memory.lacks address = false := by
        have hhit := List.find?_eq_none.mp hfind address hread
        simpa [Memory.lacks, hcapacity] using hhit
      simp only [store, hstored]
      exact ⟨_, writeBus_of_hit hhit value⟩
    | nowhere => exact (hplace hstored).elim

/-- A step without a fault is completed. -/
theorem step_of_fault?_eq_none {m : Machine σ} (h : m.guest.fault? = none) :
    ∃ m', step m = .ok m.guest.instruction m' := by
  obtain ⟨guest, hguest⟩ := Guest.step_of_fault?_eq_none h
  obtain ⟨m', hstep, -⟩ := exists_step_of_guest_step hguest
  exact ⟨m', hstep⟩

/-- A step with a fault fails with it, at the instruction that it still points to. -/
theorem step_of_fault?_eq_some
    {m : Machine σ} {fault : Fault} (h : m.guest.fault? = some fault) :
    ∃ m', step m = .error fault m' ∧ m'.pc = m.pc ∧ m'.memory = m.memory := by
  obtain ⟨registers, hguest, hpc⟩ := Guest.step_of_fault?_eq_some h
  obtain ⟨m', hstep, hm'⟩ := exists_step_error_of_guest_step hguest
  have hregisters : m'.registers = registers := congrArg Guest.registers hm'
  refine ⟨m', hstep, ?_, congrArg Guest.memory hm'⟩
  rw [pc, hregisters, hpc]
  rfl

theorem fault?_of_step_ok
    {m m' : Machine σ} {instruction : Instruction} (h : step m = .ok instruction m') :
    m.guest.fault? = none := by
  cases hfault : m.guest.fault? with
  | none => rfl
  | some fault =>
    obtain ⟨n, herror, -⟩ := step_of_fault?_eq_some hfault
    rw [herror] at h
    contradiction

theorem instruction_of_step
    {m m' : Machine σ} {instruction : Instruction} (h : step m = .ok instruction m') :
    instruction = m.guest.instruction := by
  obtain ⟨n, hstep⟩ := step_of_fault?_eq_none (fault?_of_step_ok h)
  rw [h] at hstep
  injection hstep

theorem fault?_of_step_error
    {m m' : Machine σ} {fault : Fault} (h : step m = .error fault m') :
    m.guest.fault? = some fault ∧ m'.pc = m.pc ∧ m'.memory = m.memory := by
  cases hfault : m.guest.fault? with
  | none =>
    obtain ⟨n, hok⟩ := step_of_fault?_eq_none hfault
    rw [hok] at h
    contradiction
  | some other =>
    obtain ⟨n, herror, hn⟩ := step_of_fault?_eq_some hfault
    rw [herror] at h
    injection h with hother hm'
    subst hother hm'
    exact ⟨rfl, hn⟩

/-- A step fails with the first fault that applies, and is completed if none does.  Where it fails
memory is as it was and the program counter still points at the instruction.  With every word in
memory the only fault is a literal that is to be stored to; and in any memory a target that was
resolved, unless it is a literal, can be stored to. -/
theorem step_fails_iff (m : Machine σ) :
    (m.guest.fault? = none ↔ ∃ m', step m = .ok m.guest.instruction m') ∧
    (∀ fault, m.guest.fault? = some fault ↔ ∃ m', step m = .error fault m') ∧
    (∀ fault m', step m = .error fault m' → m'.pc = m.pc ∧ m'.memory = m.memory) ∧
    (m.memory.capacity = addressSpace → ∀ fault m', step m = .error fault m' →
      m.skip = false ∧ ∃ op a b, .decode (m.memory.wordAt m.pc) = Instruction.basic op a b ∧
        op.writesTarget = true ∧ a.isLiteral = true ∧ fault = .invalidTarget a.code) ∧
    ∀ operand target m', resolve operand m = .ok target m' → target.place ≠ .nowhere →
      ∀ n : Machine σ, n.memory.capacity = m.memory.capacity →
        ∀ value, ∃ n', store target value n = .ok () n' := by
  refine ⟨⟨step_of_fault?_eq_none, ?_⟩, fun fault => ⟨fun hfault => ?_, ?_⟩, ?_, ?_, ?_⟩
  · rintro ⟨m', hstep⟩
    exact fault?_of_step_ok hstep
  · obtain ⟨m', hstep, -⟩ := step_of_fault?_eq_some hfault
    exact ⟨m', hstep⟩
  · rintro ⟨m', hstep⟩
    exact (fault?_of_step_error hstep).1
  · intro fault m' hstep
    exact (fault?_of_step_error hstep).2
  · intro hfull fault m' hstep
    exact Guest.fault?_of_full hfull (fault?_of_step_error hstep).1
  · intro operand target m' hresolve hplace n hcapacity value
    exact store_of_resolve hresolve hplace hcapacity value

end Machine

end WordMachine
