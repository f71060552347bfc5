import WordMachine.Proofs.Guest

/-!
# What a failed step leaves behind

A step can fail while its words and operands are read, at a literal that it is to store to, and at
the push of a call.  The first two come before anything changes.  A call has moved the stack
pointer when its push fails, so exactly these steps leave a trace: the stack pointer on the word
that memory lacks.
-/

namespace WordMachine

theorem Registers.callSlot_ne_sp (registers : Registers) {a : Operand} (ha : a ≠ .pop) :
    registers.callSlot a ≠ registers.sp := by
  cases a with
  | pop => contradiction
  | push =>
    change registers.sp - 1 - 1 ≠ registers.sp
    grind
  | _ =>
    change registers.sp - 1 ≠ registers.sp
    grind

/-- An instruction fails in execution at a literal target, before anything changes, or at the push
of a call. -/
theorem Instruction.effect_eq_fails
    {registers registers' : Registers} {memory : Memory} {instruction : Instruction} {fault : Fault}
    (h : instruction.effect registers memory = .fails fault registers') :
    (∃ op a b, instruction = .basic op a b ∧ fault = .invalidTarget a.code ∧
      registers' = registers) ∨
    (∃ a, instruction = .special .jsr a ∧ memory.lacks (registers.callSlot a) = true ∧
      fault = .memory (.outOfRange (registers.callSlot a).toNat memory.capacity) ∧
      registers' = registers.set .sp (registers.callSlot a)) := by
  cases instruction with
  | basic op a b =>
    left
    simp only [Instruction.effect, BasicOp.effect] at h
    split at h
    · contradiction
    · contradiction
    · contradiction
    · injection h with hfault hregisters
      exact ⟨op, a, b, rfl, hfault.symm, hregisters.symm⟩
  | special op a =>
    right
    cases op with
    | jsr =>
      simp only [Instruction.effect, SpecialOp.effect] at h
      split at h
      · rename_i hlacks
        injection h with hfault hregisters
        refine ⟨a, rfl, hlacks, hfault.symm, ?_⟩
        rw [← hregisters]
        exact registers.push_moveStack a
      · contradiction
    | reserved code => contradiction

namespace Guest

/-- The next step is a call that reads its operand and then pushes to a word that memory lacks. -/
structure PushesOutside (guest : Guest) (slot : Word) : Prop where
  unskipped : guest.skip = false
  reached : ∀ address ∈ guest.accesses, guest.memory.lacks address = false
  calls : ∃ a, guest.instruction = .special .jsr a ∧ slot = guest.registers.callSlot a
  lacks : guest.memory.lacks slot = true

theorem PushesOutside.slot_ne_sp
    {guest : Guest} {slot : Word} (h : guest.PushesOutside slot) : slot ≠ guest.registers.sp := by
  intro hslot
  obtain ⟨a, hcall, rfl⟩ := h.calls
  by_cases hpop : a = .pop
  · subst hpop
    have hmem : guest.registers.sp ∈ guest.accesses := by
      simp [accesses, hcall, Instruction.accesses, Operand.accesses, Operand.address?]
    have hreached := h.reached _ hmem
    rw [← hslot, h.lacks] at hreached
    contradiction
  · exact guest.registers.callSlot_ne_sp hpop hslot

theorem PushesOutside.unique
    {guest : Guest} {slot slot' : Word}
    (h : guest.PushesOutside slot) (h' : guest.PushesOutside slot') : slot = slot' := by
  obtain ⟨a, hcall, rfl⟩ := h.calls
  obtain ⟨a', hcall', rfl⟩ := h'.calls
  rw [hcall] at hcall'
  injection hcall' with _ ha
  rw [ha]

theorem step_error_cases
    {guest guest' : Guest} {fault : Fault} (h : guest.step = .error fault guest') :
    (guest' = guest ∧ ∀ slot, ¬guest.PushesOutside slot) ∨
    (∃ slot, guest.PushesOutside slot ∧
      fault = .memory (.outOfRange slot.toNat guest.memory.capacity) ∧
      guest' = { guest with registers := guest.registers.set .sp slot }) := by
  rw [step] at h
  split at h
  · rename_i address hfind
    left
    injection h with hfault hguest
    refine ⟨hguest.symm, fun slot hslot => ?_⟩
    have hreached := hslot.reached address (List.mem_of_find?_eq_some hfind)
    have hlacks := List.find?_some hfind
    rw [hreached] at hlacks
    contradiction
  · rename_i hfind
    have hreached : ∀ address ∈ guest.accesses, guest.memory.lacks address = false := by
      simpa using hfind
    split at h
    · contradiction
    · rename_i hskip
      split at h
      · contradiction
      · rename_i fault registers heffect
        injection h with hfault hguest
        subst hfault hguest
        rcases Instruction.effect_eq_fails heffect with
          ⟨op, a, b, hinstruction, -, rfl⟩ | ⟨a, hinstruction, hlacks, hfault, rfl⟩
        · left
          refine ⟨rfl, fun slot hslot => ?_⟩
          obtain ⟨a', hcall, -⟩ := hslot.calls
          rw [hinstruction] at hcall
          contradiction
        · right
          exact ⟨guest.registers.callSlot a,
            ⟨Bool.eq_false_iff.mpr hskip, hreached, ⟨a, hinstruction, rfl⟩, hlacks⟩,
            hfault, rfl⟩

end Guest

namespace Machine

variable {σ : Type} [Watcher σ]

/-- In a memory of full size a step fails only at a literal that it is to store to. -/
theorem step_error_of_full
    {m m' : Machine σ} {fault : Fault} (hfull : m.memory.capacity = addressSpace)
    (h : step m = .error fault m') :
    m'.guest = m.guest ∧
      ∃ op a b, m.guest.instruction = .basic op a b ∧ fault = .invalidTarget a.code := by
  have hguest := guest_step_of_error h
  have hfind : m.guest.accesses.find? m.guest.memory.lacks = none :=
    Memory.find?_lacks_of_full hfull _
  cases hskip : m.guest.skip with
  | true =>
    rw [Guest.step_of_skip hfind hskip] at hguest
    contradiction
  | false =>
    cases heffect : m.guest.effect with
    | completes registers stored skip =>
      rw [Guest.step_of_completes hfind hskip heffect] at hguest
      contradiction
    | fails fault' registers =>
      rw [Guest.step_of_fails hfind hskip heffect] at hguest
      injection hguest with hfault hregisters
      subst hfault
      rcases Instruction.effect_eq_fails heffect with
        ⟨op, a, b, hinstruction, hfault, rfl⟩ | ⟨a, -, hlacks, -⟩
      · exact ⟨hregisters.symm, op, a, b, hinstruction, hfault⟩
      · have hhit : m.guest.memory.lacks (m.guest.registers.callSlot a) = false :=
          Memory.lacks_eq_false_of_full hfull _
        rw [hhit] at hlacks
        contradiction

/-- A failed step has changed nothing that a program can observe, and fails again in the same way,
unless it is a call that pushes to a word that memory lacks.  That one has moved the stack pointer
to this word, and has changed nothing else. -/
theorem step_error_atomic_iff
    {m m' : Machine σ} {fault : Fault} (h : step m = .error fault m') :
    ((∀ slot, ¬m.guest.PushesOutside slot) ↔
      m'.guest = m.guest ∧ ∃ m'', step m' = .error fault m'') ∧
    ∀ slot, m.guest.PushesOutside slot →
      fault = .memory (.outOfRange slot.toNat m.memory.capacity) ∧
      m'.guest = { m.guest with registers := m.registers.set .sp slot } ∧
      m'.guest ≠ m.guest := by
  have hguest := guest_step_of_error h
  rcases Guest.step_error_cases hguest with ⟨hsame, hnot⟩ | ⟨slot, hslot, hfault, hmoved⟩
  · refine ⟨⟨fun _ => ⟨hsame, ?_⟩, fun _ => hnot⟩, fun slot hslot => (hnot slot hslot).elim⟩
    obtain ⟨m'', hagain, -⟩ := step_error_of_guest_eq h hsame
    exact ⟨m'', hagain⟩
  · have hmoved' : m'.guest ≠ m.guest := by
      intro hsame
      rw [hmoved] at hsame
      have hsp := congrArg (fun guest : Guest => guest.registers.sp) hsame
      exact hslot.slot_ne_sp hsp
    constructor
    · constructor
      · intro hnot
        exact (hnot slot hslot).elim
      · intro hunchanged
        exact (hmoved' hunchanged.1).elim
    · intro slot' hslot'
      obtain rfl := hslot.unique hslot'
      exact ⟨hfault, hmoved, hmoved'⟩

/-- A store of 4 to the literal 3 fails, and fails again. -/
theorem step_error_atomic_literal_target :
    let m : Machine Unit := { bus := ⟨⟨#[0x9231], by decide⟩, ()⟩ }
    step m = .error (.invalidTarget 0x23) m ∧
      ((∀ slot, ¬m.guest.PushesOutside slot) ↔
        m.guest = m.guest ∧ ∃ m'', step m = .error (.invalidTarget 0x23) m'') ∧
      ∀ slot, m.guest.PushesOutside slot →
        .invalidTarget 0x23 = Fault.memory (.outOfRange slot.toNat m.memory.capacity) ∧
        m.guest = { m.guest with registers := m.registers.set .sp slot } ∧
        m.guest ≠ m.guest :=
  ⟨rfl, step_error_atomic_iff rfl⟩

/-- With one word of memory, a call in it fails at `0xffff`, leaves the stack pointer there, and
fails at `0xfffe` when it is tried again. -/
theorem not_step_error_atomic :
    ¬∀ (m m' : Machine Unit) (fault : Fault), step m = .error fault m' →
      m'.guest = m.guest ∧ ∃ m'', step m' = .error fault m'' := by
  intro hatomic
  have hguest := (hatomic { bus := ⟨⟨#[0x8010], by decide⟩, ()⟩ }
    { bus := ⟨⟨#[0x8010], by decide⟩, ()⟩, registers := { sp := 0xffff } }
    (.memory (.outOfRange 0xffff 1)) rfl).1
  have hsp := congrArg (fun guest : Guest => guest.registers.sp) hguest
  exact absurd hsp (by decide)

end Machine

end WordMachine
