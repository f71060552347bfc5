import WordMachine.Proofs.History
import WordMachine.Recorder

/-!
# Batches

A batch takes steps one after the other, up to the first that fails.  Two batches in a row are one
batch, and the steps that a batch completes account for the step count and for the calls of the step
hook: one call for each of them, with the count and the registers after it.
-/

namespace WordMachine

namespace Event

/-- The call of a step hook that an event brings about, if it does: the step count and the
registers. -/
def call? : Event → Option (Nat × Registers)
  | .stepped report => some (report.steps, report.registers)
  | _ => none

theorem call?_eq_none {event : Event} (h : event.isAccess = true) : event.call? = none := by
  cases event with
  | stepped report => contradiction
  | _ => rfl

end Event

/-- A step hook among those who watch a machine, which may be installed or not.  Completed steps
call it and nothing else does.  Neither it nor those beside it are told of batches that break off:
they get to know accesses and completed steps alone. -/
structure StepHook (σ : Type) [Watcher σ] where
  /-- The calls so far, if the hook is installed. -/
  calls : σ → Option (List (Nat × Registers))
  calls_observe : ∀ event (watcher : σ),
    calls (Watcher.observe event watcher) = (calls watcher).map (· ++ event.call?.toList)
  observe_batchAborted : ∀ completed pc fault (watcher : σ),
    Watcher.observe (.batchAborted completed pc fault) watcher = watcher

/-- The hook by which a recorder listens to completed steps. -/
def Recorder.stepHook : StepHook Recorder where
  calls recorder := if recorder.listening then some recorder.calls.toList else none
  calls_observe := by
    rintro event ⟨accesses, listening, calls⟩
    cases listening <;> cases event <;> simp [Watcher.observe, onEvent, Event.call?]
  observe_batchAborted _ _ _ _ := rfl

/-- Peripherals watch memory alone: no hook is installed. -/
def Peripherals.stepHook : StepHook Peripherals where
  calls _ := none
  calls_observe _ _ := rfl
  observe_batchAborted _ _ _ _ := rfl

namespace StepHook

variable {σ : Type} [Watcher σ] (hook : StepHook σ)

theorem calls_tell (events : List Event) (watcher : σ) :
    hook.calls (Watcher.tell events watcher) =
      (hook.calls watcher).map (· ++ events.filterMap Event.call?) := by
  induction events generalizing watcher with
  | nil => simp
  | cons event events ih =>
    change hook.calls (Watcher.tell events (Watcher.observe event watcher)) = _
    rw [ih, hook.calls_observe, Option.map_map]
    cases hcall : event.call? <;> simp [hcall, Function.comp_def]

end StepHook

namespace Machine

variable {σ : Type} [Watcher σ] {m m' last : Machine σ} {passed : List (Machine σ)}

/-- A step calls the hook for its completion, if it is completed. -/
theorem calls_step (hook : StepHook σ) (m : Machine σ) :
    hook.calls (finalState (step m)).watcher =
      (hook.calls m.watcher).map (· ++ (m.reports (step m)).filterMap Event.call?) := by
  have haccess : ∀ event ∈ m.memory.reads (m.memory.reached m.guest.accesses) ++
      m.guest.stores.map (fun store => .wrote store.1 store.2), event.call? = none := by
    intro event hevent
    apply Event.call?_eq_none
    rcases List.mem_append.mp hevent with hread | hwrote
    · obtain ⟨address, -, rfl⟩ := List.mem_map.mp hread
      rfl
    · obtain ⟨store, -, rfl⟩ := List.mem_map.mp hwrote
      rfl
  have hwatcher := m.step_reports.watcher
  rw [watcher, watcher, hwatcher, hook.calls_tell, List.filterMap_append,
    List.filterMap_eq_nil_iff.mpr haccess, List.nil_append]

theorem calls_of_step_ok
    (hook : StepHook σ) {instruction : Instruction} (h : step m = .ok instruction m') :
    hook.calls m'.watcher =
      (hook.calls m.watcher).map (· ++ [(m'.steps, m'.registers)]) := by
  have hcalls := calls_step hook m
  rwa [h] at hcalls

theorem calls_of_step_error
    (hook : StepHook σ) {fault : Fault} (h : step m = .error fault m') :
    hook.calls m'.watcher = hook.calls m.watcher := by
  have hcalls : hook.calls m'.watcher = (hook.calls m.watcher).map (· ++ []) := by
    have hcalls := calls_step hook m
    rwa [h] at hcalls
  simpa using hcalls

theorem runAfter_of_step_ok
    {instruction : Instruction} (h : step m = .ok instruction m') (done count : Nat) :
    runAfter done (count + 1) m = runAfter (done + 1) count m' := by
  simp only [runAfter, h]

theorem runAfter_of_step_error
    {fault : Fault} (h : step m = .error fault m') (done count : Nat) :
    runAfter done (count + 1) m =
      .error fault (m'.announce (.batchAborted done m'.pc fault)) := by
  simp only [runAfter, h]

theorem announce_batchAborted
    (hook : StepHook σ) (completed : Nat) (pc : Word) (fault : Fault) (m : Machine σ) :
    m.announce (.batchAborted completed pc fault) = m := by
  obtain ⟨registers, ⟨memory, watcher⟩, steps, skip, span⟩ := m
  simp only [announce, onWatcher, hook.observe_batchAborted]

/-- Two batches in a row are one batch, of which the second goes on where the first stops. -/
theorem runAfter_add (done first second : Nat) (m : Machine σ) :
    runAfter done (first + second) m =
      (runAfter done first >>= fun _ => runAfter (done + first) second) m := by
  induction first generalizing done m with
  | zero =>
    rw [Nat.zero_add]
    rfl
  | succ first ih =>
    rw [Nat.add_right_comm]
    cases hstep : step m with
    | ok instruction m' =>
      have hdone : done + 1 + first = done + (first + 1) := by omega
      have hfirst := runAfter_of_step_ok hstep done first
      rw [runAfter_of_step_ok hstep, ih, hdone]
      simp only [bind, EStateM.bind, hfirst]
    | error fault m' =>
      rw [runAfter_of_step_error hstep, bind_of_error (runAfter_of_step_error hstep done first)]

/-- Where nobody is told of a batch that breaks off, it does not matter what came before it. -/
theorem runAfter_congr (hook : StepHook σ) (done done' count : Nat) (m : Machine σ) :
    runAfter done count m = runAfter done' count m := by
  induction count generalizing done done' m with
  | zero => rfl
  | succ count ih =>
    cases hstep : step m with
    | ok instruction m' =>
      rw [runAfter_of_step_ok hstep, runAfter_of_step_ok hstep]
      exact ih (done + 1) (done' + 1) m'
    | error fault m' =>
      rw [runAfter_of_step_error hstep, runAfter_of_step_error hstep,
        announce_batchAborted hook, announce_batchAborted hook]

/-- Steps are completed one after the other, through the given machines up to the last. -/
inductive Strides : Machine σ → List (Machine σ) → Machine σ → Prop
  | rest (m : Machine σ) : Strides m [] m
  | next {m m' last : Machine σ} {instruction : Instruction} {passed : List (Machine σ)}
      (hstep : step m = .ok instruction m') (hstrides : Strides m' passed last) :
      Strides m (m' :: passed) last

theorem Strides.runAfter_eq (h : Strides m passed last) (done rest : Nat) :
    runAfter done (passed.length + rest) m = runAfter (done + passed.length) rest last := by
  induction h generalizing done with
  | rest m => simp
  | @next m m' last instruction passed hstep hstrides ih =>
    have hdone : done + 1 + passed.length = done + (passed.length + 1) := by omega
    rw [List.length_cons, Nat.add_right_comm, runAfter_of_step_ok hstep, ih, hdone]

/-- From every machine so many steps are completed, or one of them fails. -/
theorem exists_strides (count : Nat) (m : Machine σ) :
    ∃ passed last, Strides m passed last ∧
      (passed.length = count ∨
        passed.length < count ∧ ∃ fault m', step last = .error fault m') := by
  induction count generalizing m with
  | zero => exact ⟨[], m, .rest m, .inl rfl⟩
  | succ count ih =>
    cases hstep : step m with
    | ok instruction m' =>
      obtain ⟨passed, last, hstrides, hend⟩ := ih m'
      refine ⟨m' :: passed, last, .next hstep hstrides, ?_⟩
      rcases hend with hlength | ⟨hlength, hfails⟩
      · exact .inl (congrArg (· + 1) hlength)
      · exact .inr ⟨Nat.succ_lt_succ hlength, hfails⟩
    | error fault m' => exact ⟨[], m, .rest m, .inr ⟨Nat.succ_pos count, fault, m', hstep⟩⟩

end Machine

/-- The steps through the given machines are all that was counted and all that the hook was called
for on the way from one machine to another.  The counts of the calls are consecutive, and each comes
with the registers after its step. -/
structure StepHook.Accounts {σ : Type} [Watcher σ] (hook : StepHook σ)
    (m : Machine σ) (passed : List (Machine σ)) (m' : Machine σ) : Prop where
  steps : m'.steps = m.steps + passed.length
  calls : hook.calls m'.watcher =
    (hook.calls m.watcher).map
      (· ++ passed.mapIdx fun i after => (m.steps + i + 1, after.registers))

namespace Machine

variable {σ : Type} [Watcher σ] (hook : StepHook σ) {m m' last : Machine σ}
  {passed : List (Machine σ)} {fault : Fault}

theorem Strides.accounts (h : Strides m passed last) : hook.Accounts m passed last := by
  induction h with
  | rest m => exact ⟨rfl, by simp⟩
  | @next m m' last instruction passed hstep hstrides ih =>
    have hcounted : m'.steps = m.steps + 1 := Guest.counted_of_step (guest_step_of_ok hstep)
    constructor
    · rw [ih.steps, hcounted, List.length_cons]
      omega
    · rw [ih.calls, calls_of_step_ok hook hstep, Option.map_map, List.mapIdx_cons, hcounted]
      simp only [Function.comp_def, List.append_assoc, List.singleton_append, Nat.add_zero,
        Nat.add_assoc, Nat.add_comm 1]

theorem Strides.accounts_error
    (h : Strides m passed last) (hstep : step last = .error fault m') :
    hook.Accounts m passed m' := by
  have hcounted : m'.steps = last.steps := Guest.steps_of_step_error (guest_step_of_error hstep)
  have hlast := h.accounts hook
  constructor
  · rw [hcounted, hlast.steps]
  · rw [calls_of_step_error hook hstep, hlast.calls]

omit hook in
theorem Strides.run_eq (h : Strides m passed last) :
    run passed.length m = .ok passed.length last := by
  have hrun : runAfter 0 passed.length m = .ok () last := h.runAfter_eq 0 0
  rw [run, bind_of_ok hrun]
  rfl

include hook in
theorem Strides.run_error
    (h : Strides m passed last) (hstep : step last = .error fault m') {count : Nat}
    (hcount : passed.length < count) : run count m = .error fault m' := by
  obtain ⟨rest, rfl⟩ := Nat.exists_eq_add_of_lt hcount
  have hrun : runAfter 0 (passed.length + rest + 1) m = .error fault m' := by
    rw [Nat.add_assoc, h.runAfter_eq, runAfter_of_step_error hstep, announce_batchAborted hook]
  rw [run, bind_of_error hrun]

include hook in
theorem run_add (first second : Nat) (m : Machine σ) :
    run (first + second) m =
      (do
        let ran ← run first
        let ran' ← run second
        return ran + ran' : Action σ Nat) m := by
  have hadd := runAfter_add 0 first second m
  cases hfirst : runAfter 0 first m with
  | ok _ m' =>
    rw [bind_of_ok hfirst, runAfter_congr hook (0 + first) 0] at hadd
    have hran : run first m = .ok first m' := bind_of_ok hfirst
    rw [bind_of_ok hran]
    cases hsecond : runAfter 0 second m' with
    | ok _ m'' =>
      have hran' : run second m' = .ok second m'' := bind_of_ok hsecond
      rw [bind_of_ok hran', run, bind_of_ok (hadd.trans hsecond)]
    | error fault m'' =>
      have hran' : run second m' = .error fault m'' := bind_of_error hsecond
      rw [bind_of_error hran', run, bind_of_error (hadd.trans hsecond)]
  | error fault m' =>
    rw [bind_of_error hfirst] at hadd
    have hran : run first m = .error fault m' := bind_of_error hfirst
    rw [bind_of_error hran, run, bind_of_error hadd]

/-- Batches compose, and they account for every step. -/
theorem run_accounts (m : Machine σ) :
    (∀ first second, run (first + second) m =
      (do
        let ran ← run first
        let ran' ← run second
        return ran + ran' : Action σ Nat) m) ∧
    (∀ passed last, Strides m passed last →
      run passed.length m = .ok passed.length last ∧ hook.Accounts m passed last ∧
      ∀ fault m', step last = .error fault m' →
        hook.Accounts m passed m' ∧
        ∀ count, passed.length < count → run count m = .error fault m') ∧
    ∀ count, ∃ passed last, Strides m passed last ∧
      (passed.length = count ∨
        passed.length < count ∧ ∃ fault m', step last = .error fault m') := by
  refine ⟨fun first second => run_add hook first second m, fun passed last h => ?_,
    fun count => exists_strides count m⟩
  refine ⟨h.run_eq, h.accounts hook, fun fault m' hstep => ?_⟩
  exact ⟨h.accounts_error hook hstep, fun count hcount => h.run_error hook hstep hcount⟩

/-- A failed test, the instruction that it skips, and a store to a literal, which fails: the hook is
called for the first two. -/
example :
    let m : Machine Recorder :=
      { bus := ⟨⟨#[0x860c, 0x8401, 0x9231], by decide⟩, { listening := true }⟩ }
    (finalState (run 3 m)).watcher.calls.toList =
      [(1, { pc := 1 : Registers }), (2, { pc := 2 : Registers })] := by
  rfl

end Machine

end WordMachine
