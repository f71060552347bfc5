import WordMachine.Proofs.Execution

/-!
# The machine without its watcher

A program can observe registers, memory, the number of completed instructions and the pending skip,
and nothing else of its machine.  `guest_step` gives a step as a function of these alone, so what a
step does for a program depends neither on who watches the machine nor on what was read before.
-/

namespace WordMachine

/-- The registers when the program counter has moved on, unless the instruction has
set it itself. -/
def Instruction.landed (registers : Registers) (instruction : Instruction) : Registers :=
  if instruction.jumps then registers else registers.advance instruction.words

namespace Guest

/-- A step as a program observes it. -/
def step (guest : Guest) : EStateM.Result Fault Guest Instruction :=
  match guest.accesses.find? guest.memory.lacks with
  | some address => .error (.memory (.outOfRange address.toNat guest.memory.capacity)) guest
  | none =>
    if guest.skip then
      .ok guest.instruction
        ⟨guest.registers.advance guest.instruction.words, guest.memory, guest.steps + 1, false⟩
    else
      match guest.effect with
      | .completes registers stored skip =>
        .ok guest.instruction
          ⟨guest.instruction.landed registers, guest.memory.putAll stored.toList,
            guest.steps + 1, skip⟩
      | .fails fault registers => .error fault { guest with registers }

variable {guest : Guest}

theorem step_of_skip
    (hfind : guest.accesses.find? guest.memory.lacks = none) (hskip : guest.skip = true) :
    guest.step =
      .ok guest.instruction
        ⟨guest.registers.advance guest.instruction.words, guest.memory, guest.steps + 1,
          false⟩ := by
  rw [step, hfind]
  exact if_pos hskip

theorem eq_of_step_of_skip
    {guest' : Guest} {instruction : Instruction} (hskip : guest.skip = true)
    (h : guest.step = .ok instruction guest') :
    guest' =
      ⟨guest.registers.advance guest.instruction.words, guest.memory, guest.steps + 1, false⟩ := by
  rw [step] at h
  split at h
  · contradiction
  · rw [if_pos hskip] at h
    injection h with _ hguest
    exact hguest.symm

/-- Every completed step counts, a skipped one too. -/
theorem counted_of_step
    {guest' : Guest} {instruction : Instruction} (h : guest.step = .ok instruction guest') :
    guest'.steps = guest.steps + 1 := by
  rw [step] at h
  split at h
  · contradiction
  · split at h
    · injection h with _ hguest
      rw [← hguest]
    · split at h
      · injection h with _ hguest
        rw [← hguest]
      · contradiction

theorem steps_of_step_error
    {guest' : Guest} {fault : Fault} (h : guest.step = .error fault guest') :
    guest'.steps = guest.steps := by
  rw [step] at h
  split at h
  · injection h with _ hguest
    rw [← hguest]
  · split at h
    · contradiction
    · split at h
      · contradiction
      · injection h with _ hguest
        rw [← hguest]

theorem step_of_completes
    (hfind : guest.accesses.find? guest.memory.lacks = none) (hskip : guest.skip = false)
    {registers : Registers} {stored : Option (Word × Word)} {skip : Bool}
    (heffect : guest.effect = .completes registers stored skip) :
    guest.step =
      .ok guest.instruction
        ⟨guest.instruction.landed registers, guest.memory.putAll stored.toList,
          guest.steps + 1, skip⟩ := by
  rw [step, hfind, heffect]
  exact if_neg (ne_true_of_eq_false hskip)

theorem step_of_fails
    (hfind : guest.accesses.find? guest.memory.lacks = none) (hskip : guest.skip = false)
    {fault : Fault} {registers : Registers} (heffect : guest.effect = .fails fault registers) :
    guest.step = .error fault { guest with registers } := by
  rw [step, hfind, heffect]
  exact if_neg (ne_true_of_eq_false hskip)

end Guest

namespace Machine

variable {σ τ : Type} [Watcher σ] [Watcher τ]

theorem guest_retire
    (pc word : Word) (instruction : Instruction) (skipped : Bool) (m : Machine σ) :
    (retire pc word instruction skipped m).guest =
      ⟨if !skipped && instruction.jumps then m.registers else m.registers.advance m.span,
        m.memory, m.steps + 1, m.skip⟩ :=
  rfl

/-- What a step does for a program is a function of what the program can observe. -/
theorem guest_step (m : Machine σ) : mapState guest (step m) = m.guest.step := by
  cases hfind : m.guest.accesses.find? m.guest.memory.lacks with
  | some address =>
    obtain ⟨span, hstep⟩ := step_of_lacks hfind
    rw [hstep, Guest.step, hfind]
    rfl
  | none =>
    rw [step_eq_outcome m hfind, outcome, Guest.step, hfind]
    cases hskip : m.skip with
    | true =>
      have hguest : m.guest.skip = true := hskip
      rw [if_pos hguest, if_pos rfl]
      rfl
    | false =>
      have hguest : ¬m.guest.skip = true := ne_true_of_eq_false hskip
      rw [if_neg hguest, if_neg Bool.false_ne_true]
      cases heffect : m.guest.effect with
      | completes registers stored skip =>
        simp only [mapState, guest_retire, memory, Bus.memory_commitAll]
        rfl
      | fails fault registers => rfl

theorem guest_step_of_ok
    {m m' : Machine σ} {instruction : Instruction} (h : step m = .ok instruction m') :
    m.guest.step = .ok instruction m'.guest := by
  rw [← guest_step, h]
  rfl

theorem guest_step_of_error
    {m m' : Machine σ} {fault : Fault} (h : step m = .error fault m') :
    m.guest.step = .error fault m'.guest := by
  rw [← guest_step, h]
  rfl

/-- The machine completes a step that a program sees completed. -/
theorem exists_step_of_guest_step
    {m : Machine σ} {instruction : Instruction} {guest : Guest}
    (h : m.guest.step = .ok instruction guest) :
    ∃ m', step m = .ok instruction m' ∧ m'.guest = guest := by
  rw [← guest_step] at h
  cases hstep : step m with
  | ok instruction' m' =>
    rw [hstep] at h
    injection h with hinstruction hguest
    subst hinstruction
    exact ⟨m', rfl, hguest⟩
  | error fault m' => simp [hstep, mapState] at h

/-- Machines that a program cannot tell apart fail alike. -/
theorem step_error_of_guest_eq
    {m m' : Machine σ} {n : Machine τ} {fault : Fault}
    (h : step m = .error fault m') (hguest : n.guest = m.guest) :
    ∃ n', step n = .error fault n' ∧ n'.guest = m'.guest := by
  have hn : mapState guest (step n) = .error fault m'.guest := by
    rw [guest_step, hguest, guest_step_of_error h]
  cases hstep : step n with
  | ok instruction n' => simp [hstep, mapState] at hn
  | error fault' n' =>
    rw [hstep] at hn
    injection hn with hfault hn'
    subst hfault
    exact ⟨n', rfl, hn'⟩

end Machine

end WordMachine
