import WordMachine.Runner

/-!
# Running in batches

A worker divides a run into batches and may be stopped between any two instructions.  Neither leaves
a trace in the machine: whenever the run ends, and however it was divided, the machine has come
along the one walk of completed steps that starts where the run was started.  `Runner.Looks` says
once what a worker can do after a look at the stop flag, and `Runner.Underway` is what every look
keeps: the steps counted are the steps walked, and the looks are these steps and one for each batch.
-/

namespace WordMachine

namespace Machine

variable {σ : Type} [Watcher σ]

/-- So many steps are completed one after the other, and the step hook breaks down after none of
them. -/
inductive Walk (trips : Nat → Registers → Bool) (first : Machine σ) : Nat → Machine σ → Prop
  | rest : Walk trips first 0 first
  | next {k : Nat} {m m' : Machine σ} {instruction : Instruction}
      (hwalk : Walk trips first k m) (hstep : step m = .ok instruction m')
      (hstands : trips m'.steps m'.registers = false) : Walk trips first (k + 1) m'

/-- No walk leads on from the machine: its step fails, or the step hook breaks down after it. -/
def Ends (trips : Nat → Registers → Bool) (m : Machine σ) : Prop :=
  ∀ instruction m', step m = .ok instruction m' → trips m'.steps m'.registers = true

variable {trips : Nat → Registers → Bool} {first m m' : Machine σ} {k k' : Nat}

theorem ends_of_error {fault : Fault} (h : step m = .error fault m') : Ends trips m := by
  intro instruction m'' hstep
  rw [h] at hstep
  contradiction

theorem ends_of_trips
    {instruction : Instruction} (h : step m = .ok instruction m')
    (htrips : trips m'.steps m'.registers = true) : Ends trips m := by
  intro instruction' m'' hstep
  rw [h] at hstep
  injection hstep with _ hm
  rw [← hm]
  exact htrips

theorem Walk.unique
    (h : Walk trips first k m) (h' : Walk trips first k m') : m = m' := by
  induction h generalizing m' with
  | rest =>
    cases h'
    rfl
  | next hwalk hstep hstands ih =>
    obtain - | ⟨hwalk', hstep', hstands'⟩ := h'
    obtain rfl := ih hwalk'
    rw [hstep] at hstep'
    injection hstep'

/-- A walk does not lead past a machine where it ends. -/
theorem Walk.le_of_ends
    (h : Walk trips first k m) (hends : Ends trips m) (h' : Walk trips first k' m') :
    k' ≤ k := by
  induction h' with
  | rest => exact Nat.zero_le k
  | next hwalk hstep hstands ih =>
    refine Nat.lt_of_le_of_ne ih fun hk => ?_
    subst hk
    obtain rfl := hwalk.unique h
    rw [hends _ _ hstep] at hstands
    contradiction

/-- There is at most one machine where the walk ends, and the walk gets there once. -/
theorem Walk.end_unique
    (h : Walk trips first k m) (hends : Ends trips m)
    (h' : Walk trips first k' m') (hends' : Ends trips m') : k = k' ∧ m = m' := by
  have hk : k = k' := Nat.le_antisymm (h'.le_of_ends hends' h) (h.le_of_ends hends h')
  subst hk
  exact ⟨rfl, h.unique h'⟩

end Machine

namespace Runner

open Machine (Walk Ends ends_of_error ends_of_trips)

variable {σ : Type} [Watcher σ]

/-- What a worker does after a look that finds the stop flag down. -/
inductive Looks (runner : Runner σ) : Runner σ → Prop
  /-- There is no worker, or its run has ended. -/
  | rests (hidle : runner.isRunning = false) : Looks runner runner
  /-- It begins a batch. -/
  | begins {steps : Nat} (hworker : runner.worker = some ⟨0, steps, none⟩) :
      Looks runner { runner with worker := some ⟨runner.settings.batchSize, steps, none⟩ }
  | steps {m : Machine σ} {left steps : Nat} {instruction : Instruction}
      (hworker : runner.worker = some ⟨left + 1, steps, none⟩)
      (hstep : runner.machine.step = .ok instruction m)
      (hstands : runner.trips m.steps m.registers = false) :
      Looks runner { runner with machine := m, worker := some ⟨left, steps + 1, none⟩ }
  | breaks {m : Machine σ} {left steps : Nat} {instruction : Instruction}
      (hworker : runner.worker = some ⟨left + 1, steps, none⟩)
      (hstep : runner.machine.step = .ok instruction m)
      (htrips : runner.trips m.steps m.registers = true) :
      Looks runner
        { runner with
          machine := m, poisoned := true, worker := some ⟨left, steps, some .panicked⟩ }
  | fails {m : Machine σ} {left steps : Nat} {fault : Fault}
      (hworker : runner.worker = some ⟨left + 1, steps, none⟩)
      (hstep : runner.machine.step = .error fault m) :
      Looks runner
        { runner with machine := m, worker := some ⟨left, steps, some (.machine fault)⟩ }

theorem looks_proceed (runner : Runner σ) : Looks runner runner.proceed := by
  obtain ⟨m, poisoned, settings, trips, worker, strays⟩ := runner
  match worker with
  | none => exact .rests rfl
  | some ⟨left, steps, some ending⟩ =>
    cases left <;> exact .rests rfl
  | some ⟨0, steps, none⟩ =>
    rw [proceed, locked_eq]
    exact .begins rfl
  | some ⟨left + 1, steps, none⟩ =>
    rw [proceed]
    split
    · rename_i instruction m' hstep
      by_cases htrips : trips m'.steps m'.registers = true
      · rw [if_pos htrips]
        exact .breaks rfl hstep htrips
      · rw [if_neg htrips]
        exact .steps rfl hstep (Bool.eq_false_iff.mpr htrips)
    · rename_i fault m' hstep
      exact .fails rfl hstep

theorem proceed_of_not_running {runner : Runner σ} (h : runner.isRunning = false) :
    runner.proceed = runner := by
  have hlooks := looks_proceed runner
  generalize runner.proceed = next at hlooks ⊢
  cases hlooks with
  | rests => rfl
  | begins hworker | steps hworker | breaks hworker | fails hworker =>
    rw [isRunning, hworker] at h
    contradiction

/-- Looks at a run that has ended change nothing, so all looks are alike. -/
theorem advance_succ (looks : Nat) (runner : Runner σ) :
    runner.advance (looks + 1) = runner.proceed.advance looks := by
  have hends (runner : Runner σ) (h : runner.isRunning = false) (looks : Nat) :
      runner.advance looks = runner := by
    cases looks with
    | zero => rfl
    | succ looks => simp [advance, h]
  rw [advance]
  split
  · rfl
  · rename_i h
    have hidle : runner.isRunning = false := Bool.eq_false_iff.mpr h
    rw [proceed_of_not_running hidle, hends runner hidle]

/-- The runner when a run over the machine has just been started. -/
def begun (first : Machine σ) (settings : RunSettings) (trips : Nat → Registers → Bool) :
    Runner σ where
  machine := first
  settings := settings
  trips := trips
  worker := some {}

/-- The runner after so many looks at a run that was started over the first machine. -/
inductive Underway
    (first : Machine σ) (settings : RunSettings) (trips : Nat → Registers → Bool) (looks : Nat) :
    Runner σ → Prop
  | runs {k left batches : Nat} {m : Machine σ} (hwalk : Walk trips first k m)
      (hlooks : looks = k + batches) (hbatches : batches * settings.batchSize = k + left)
      (hleft : left ≤ settings.batchSize) :
      Underway first settings trips looks
        { machine := m, settings, trips, worker := some ⟨left, k, none⟩ }
  | broken {k left : Nat} {m m' : Machine σ} {instruction : Instruction}
      (hwalk : Walk trips first k m) (hstep : m.step = .ok instruction m')
      (htrips : trips m'.steps m'.registers = true) :
      Underway first settings trips looks
        { machine := m', poisoned := true, settings, trips
          worker := some ⟨left, k, some .panicked⟩ }
  | failed {k left : Nat} {m m' : Machine σ} {fault : Fault}
      (hwalk : Walk trips first k m) (hstep : m.step = .error fault m') :
      Underway first settings trips looks
        { machine := m', settings, trips, worker := some ⟨left, k, some (.machine fault)⟩ }

variable {first : Machine σ} {settings : RunSettings} {trips : Nat → Registers → Bool}
  {looks : Nat}

theorem underway_begun : Underway first settings trips 0 (begun first settings trips) :=
  .runs .rest rfl (Nat.zero_mul _) (Nat.zero_le _)

theorem Underway.look {runner runner' : Runner σ}
    (h : Underway first settings trips looks runner) (hlook : Looks runner runner') :
    Underway first settings trips (looks + 1) runner' := by
  cases h with
  | broken hwalk hstep htrips =>
    cases hlook with
    | rests => exact .broken hwalk hstep htrips
    | begins hworker | steps hworker | breaks hworker | fails hworker => cases hworker
  | failed hwalk hstep =>
    cases hlook with
    | rests => exact .failed hwalk hstep
    | begins hworker | steps hworker | breaks hworker | fails hworker => cases hworker
  | @runs k left batches m hwalk hlooks hbatches hleft =>
    cases hlook with
    | rests hidle => contradiction
    | begins hworker =>
      obtain ⟨rfl, rfl⟩ : left = 0 ∧ k = _ := by simpa using hworker
      have hmore : looks + 1 = k + (batches + 1) := by rw [hlooks, Nat.add_assoc]
      have hfull : (batches + 1) * settings.batchSize = k + settings.batchSize := by
        rw [Nat.succ_mul, hbatches, Nat.add_zero]
      exact .runs hwalk hmore hfull (Nat.le_refl _)
    | @steps _ left' _ _ hworker hstep hstands =>
      obtain ⟨rfl, rfl⟩ : left = left' + 1 ∧ k = _ := by simpa using hworker
      have hmore : looks + 1 = k + 1 + batches := by rw [hlooks, Nat.add_right_comm]
      have hrest : batches * settings.batchSize = k + 1 + left' := by
        rw [hbatches, Nat.add_right_comm, Nat.add_assoc]
      exact .runs (hwalk.next hstep hstands) hmore hrest (Nat.le_of_succ_le hleft)
    | breaks hworker hstep htrips =>
      cases hworker
      exact .broken hwalk hstep htrips
    | fails hworker hstep =>
      cases hworker
      exact .failed hwalk hstep

theorem Underway.advance {done : Nat} {runner : Runner σ}
    (h : Underway first settings trips done runner) (looks : Nat) :
    Underway first settings trips (done + looks) (runner.advance looks) := by
  induction looks generalizing done runner with
  | zero => exact h
  | succ looks ih =>
    rw [advance_succ, Nat.add_comm looks 1, ← Nat.add_assoc]
    exact ih (h.look (looks_proceed runner))

theorem underway_advance (looks : Nat) :
    Underway first settings trips looks ((begun first settings trips).advance looks) := by
  have hbegun : Underway first settings trips 0 (begun first settings trips) := underway_begun
  simpa only [Nat.zero_add] using hbegun.advance looks

/-- There is no batch without an instruction between two others, so at least every other look of a
run executes one. -/
theorem batches_le
    {k left batches batchSize : Nat} (hpositive : 0 < batchSize)
    (hbatches : batches * batchSize = k + left) (hleft : left ≤ batchSize) : batches ≤ k + 1 := by
  refine Nat.le_of_not_lt fun hmany => ?_
  have hfull : (k + 2) * batchSize ≤ k + batchSize :=
    calc (k + 2) * batchSize
        ≤ batches * batchSize := Nat.mul_le_mul_right batchSize hmany
      _ = k + left := hbatches
      _ ≤ k + batchSize := Nat.add_le_add_left hleft k
  have hsteps : k + 1 ≤ (k + 1) * batchSize := Nat.le_mul_of_pos_right (k + 1) hpositive
  rw [Nat.succ_mul] at hfull
  omega

/-- The step at which a walk ends is the last one of the run that takes it, whatever its batches
are. -/
theorem Underway.failed_of_walk
    {runner : Runner σ} (h : Underway first settings trips looks runner)
    (hpositive : 0 < settings.batchSize) {k : Nat} {m m' : Machine σ} {fault : Fault}
    (hwalk : Walk trips first k m) (hstep : m.step = .error fault m')
    (hlooks : 2 * k + 2 ≤ looks) :
    ∃ left, runner =
      { machine := m', settings, trips, worker := some ⟨left, k, some (.machine fault)⟩ } := by
  have hends : Ends trips m := ends_of_error hstep
  cases h with
  | runs hwalk' hlooks' hbatches hleft =>
    have hsteps := hwalk.le_of_ends hends hwalk'
    have hbegun := batches_le hpositive hbatches hleft
    omega
  | broken hwalk' hstep' htrips =>
    obtain ⟨-, rfl⟩ := hwalk.end_unique hends hwalk' (ends_of_trips hstep' htrips)
    rw [hstep] at hstep'
    contradiction
  | @failed k' left _ _ _ hwalk' hstep' =>
    obtain ⟨rfl, rfl⟩ := hwalk.end_unique hends hwalk' (ends_of_error hstep')
    rw [hstep] at hstep'
    obtain ⟨rfl, rfl⟩ := EStateM.Result.error.inj hstep'
    exact ⟨left, rfl⟩

/-- A run ends between two instructions, or at one that fails.  When it is stopped after so many
looks, the machine has come along the walk of single steps from where the run was started, as far as
the count that is given back; when a fault is given back, it is the fault of the step at which the
walk ends.  A run that is not stopped gets to this step after as many steps as there are before it,
and its outcome is told without the batch size. -/
theorem run_walks (first : Machine σ) (trips : Nat → Registers → Bool) :
    (∀ settings, start { machine := first, settings, trips } = .ok ()
      (begun (first.announce (.runStarted settings.batchSize settings.tick)) settings trips)) ∧
    (∀ settings looks,
      let reached := (begun first settings trips).advance looks
      (∀ k rest, reached.stop = .ok k rest →
        Walk trips first k reached.machine ∧
        rest.machine = reached.machine.announce (.runStopped k) ∧
        (0 < settings.batchSize → looks ≤ 2 * k + 1)) ∧
      (∀ fault rest, reached.stop = .error (.machine fault) rest →
        ∃ k m, Walk trips first k m ∧ m.step = .error fault reached.machine ∧
          reached.worker.map Worker.steps = some k ∧
          rest.machine = reached.machine.announce (.runFailed fault)) ∧
      ∀ rest, reached.stop = .error .panicked rest →
        ∃ k m instruction, Walk trips first k m ∧ m.step = .ok instruction reached.machine ∧
          trips reached.machine.steps reached.machine.registers = true ∧
          rest.machine = reached.machine) ∧
    ∀ k m fault m', Walk trips first k m → m.step = .error fault m' →
      ∀ settings looks, 0 < settings.batchSize → 2 * k + 2 ≤ looks →
        let reached := (begun first settings trips).advance looks
        reached.machine = m' ∧ reached.worker.map Worker.steps = some k ∧
        reached.stop = .error (.machine fault)
          { machine := m'.announce (.runFailed fault), settings, trips } := by
  refine ⟨fun settings => rfl, ?_, ?_⟩
  · intro settings looks reached
    have hreached : Underway first settings trips looks reached := underway_advance looks
    generalize reached = runner at hreached
    cases hreached with
    | @runs k _ _ _ hwalk hlooks hbatches hleft =>
      refine ⟨?_, nofun, nofun⟩
      intro k' rest hstop
      obtain ⟨hsteps, rfl⟩ := EStateM.Result.ok.inj hstop
      obtain rfl : k = k' := hsteps
      refine ⟨hwalk, rfl, fun hpositive => ?_⟩
      have hbegun := batches_le hpositive hbatches hleft
      omega
    | broken hwalk hstep htrips =>
      refine ⟨nofun, nofun, ?_⟩
      intro rest hstop
      obtain ⟨-, rfl⟩ := EStateM.Result.error.inj hstop
      exact ⟨_, _, _, hwalk, hstep, htrips, rfl⟩
    | failed hwalk hstep =>
      refine ⟨nofun, ?_, nofun⟩
      intro fault rest hstop
      obtain ⟨hfault, rfl⟩ := EStateM.Result.error.inj hstop
      obtain rfl := RunFault.machine.inj hfault
      exact ⟨_, _, hwalk, hstep, rfl, rfl⟩
  · intro k m fault m' hwalk hstep settings looks hpositive hlooks reached
    have hreached : Underway first settings trips looks reached := underway_advance looks
    obtain ⟨left, hreached⟩ := hreached.failed_of_walk hpositive hwalk hstep hlooks
    rw [hreached]
    exact ⟨rfl, rfl, rfl⟩

end Runner

end WordMachine
