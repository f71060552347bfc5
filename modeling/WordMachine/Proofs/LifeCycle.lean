import Mathlib.Data.List.Induction
import WordMachine.Proofs.Forecast
import WordMachine.Proofs.Worker

/-!
# The life of a run

A run that ends by itself keeps its fault until the runner is next asked to start, to stop or to
give the machine back, and that request is answered with the fault.  `Runner.Act` is anything that
can happen to a runner, a look of its worker included, so a list of acts is any order of requests
and any schedule of the worker between them.  What a list of acts leaves uncollected is told by
`Runner.ending`; one act creates, keeps or takes it, and no act does two of these.  A breakdown
poisons the lock on the machine; `perform_heal` says that nobody can tell.
-/

namespace WordMachine

/-- What an action gives back, without the state that it leaves. -/
def answerOf {S ε α : Type} : EStateM.Result ε S α → Except ε α
  | .ok a _ => .ok a
  | .error e _ => .error e

namespace Runner

variable {σ : Type} [Watcher σ]

/-- What a runner gives back when it is not refusing. -/
inductive Reply (σ : Type)
  | done
  | counted (steps : Nat)
  | executed (instruction : Instruction)
  | handed (machine : Machine σ)

/-- What can happen to a runner. -/
inductive Act (σ : Type)
  /-- The worker, if there is one, looks at the stop flag and finds it down. -/
  | look
  | start
  | stop
  | step
  /-- The machine is changed in whatever way, and what its step hook does with it.  The caller may
  break down at it. -/
  | access (change : Machine σ → Machine σ) (trips : Nat → Registers → Bool) (breaks : Bool)
  | release

namespace Act

def attempt : Act σ → EStateM CallFault (Runner σ) (Reply σ)
  | look => do
    modify proceed
    return .done
  | start => do
    EStateM.adaptExcept .refused Runner.start
    return .done
  | stop => do
    let steps ← EStateM.adaptExcept .refused Runner.stop
    return .counted steps
  | step => do
    let instruction ← Runner.step
    return .executed instruction
  | access change trips breaks => do
    modify fun runner => { runner with trips }
    withMachine fun machine => (if breaks then none else some (), change machine)
    return .done
  | release => do
    let machine ← EStateM.adaptExcept .refused Runner.release
    return .handed machine

/-- What the act is answered with. -/
def answer (act : Act σ) (runner : Runner σ) : Except CallFault (Reply σ) :=
  answerOf (act.attempt runner)

/-- Whether the act takes what is left of a run. -/
def collects : Act σ → Bool
  | start | stop | release => true
  | _ => false

/-- What goes wrong with the act at a runner by its own doing, whatever a run has come to. -/
inductive Spoils (runner : Runner σ) : Act σ → CallFault → Prop
  | fails {cause : Fault} {m : Machine σ} (hstep : runner.machine.step = .error cause m) :
      Spoils runner step (.refused (.machine cause))
  | trips {instruction : Instruction} {m : Machine σ}
      (hstep : runner.machine.step = .ok instruction m)
      (htrips : runner.trips m.steps m.registers = true) : Spoils runner step .broken
  | breaks {change : Machine σ → Machine σ} {trips : Nat → Registers → Bool} :
      Spoils runner (access change trips true) .broken

end Act

def perform (runner : Runner σ) (act : Act σ) : Runner σ :=
  finalState (act.attempt runner)

def performAll (runner : Runner σ) (acts : List (Act σ)) : Runner σ :=
  acts.foldl perform runner

/-- The fault of a run that has ended by itself and has not been collected. -/
def ending (runner : Runner σ) : Option RunFault :=
  runner.worker.bind Worker.ending

/-- The fault with which the act ends a run, if it does. -/
def endsWith (runner : Runner σ) (act : Act σ) : Option RunFault :=
  if runner.isRunning then (runner.perform act).ending else none

/-- The next instruction of the run is its last one. -/
inductive Nears (runner : Runner σ) : RunFault → Prop
  | failing {left steps : Nat} {cause : Fault} {m : Machine σ}
      (hworker : runner.worker = some ⟨left + 1, steps, none⟩)
      (hstep : runner.machine.step = .error cause m) : Nears runner (.machine cause)
  | tripping {left steps : Nat} {instruction : Instruction} {m : Machine σ}
      (hworker : runner.worker = some ⟨left + 1, steps, none⟩)
      (hstep : runner.machine.step = .ok instruction m)
      (htrips : runner.trips m.steps m.registers = true) : Nears runner .panicked

/-- Whatever happens to both runners, they have the same machine and the same answers. -/
def Alike (runner other : Runner σ) : Prop :=
  ∀ acts : List (Act σ),
    (runner.performAll acts).machine = (other.performAll acts).machine ∧
    (runner.performAll acts).isRunning = (other.performAll acts).isRunning ∧
    ∀ act : Act σ, act.answer (runner.performAll acts) = act.answer (other.performAll acts)

/-- Until somebody collects, the runner and one that has no worker are alike.  Whoever collects is
told that the step hook broke down, and the two are alike ever after. -/
def GoesOnAs (runner normal : Runner σ) : Prop :=
  ∀ acts : List (Act σ), (∀ act ∈ acts, act.collects = false) →
    (runner.performAll acts).machine = (normal.performAll acts).machine ∧
    (runner.performAll acts).isRunning = (normal.performAll acts).isRunning ∧
    ∀ act : Act σ,
      (act.collects = false →
        act.answer (runner.performAll acts) = act.answer (normal.performAll acts)) ∧
      (act.collects = true →
        act.answer (runner.performAll acts) = .error (.refused .panicked) ∧
        Alike ((runner.performAll acts).perform act) (normal.performAll acts))

section Step

variable {runner : Runner σ} {instruction : Instruction} {cause : Fault} {m : Machine σ}

theorem attempt_step_of_stands (hstep : runner.machine.step = .ok instruction m)
    (hstands : runner.trips m.steps m.registers = false) :
    Act.attempt .step runner = .ok (.executed instruction) { runner with machine := m } := by
  refine bind_of_ok (?_ : runner.step = .ok instruction { runner with machine := m })
  simp [step, hstep, hstands]

theorem attempt_step_of_trips (hstep : runner.machine.step = .ok instruction m)
    (htrips : runner.trips m.steps m.registers = true) :
    Act.attempt .step runner = .error .broken { runner with machine := m, poisoned := true } := by
  refine bind_of_error
    (?_ : runner.step = .error .broken { runner with machine := m, poisoned := true })
  simp [step, hstep, htrips]

theorem attempt_step_of_error (hstep : runner.machine.step = .error cause m) :
    Act.attempt .step runner =
      .error (.refused (.machine cause)) { runner with machine := m } := by
  refine bind_of_error
    (?_ : runner.step = .error (.refused (.machine cause)) { runner with machine := m })
  simp [step, hstep]

end Step

theorem attempt_access (runner : Runner σ) (change : Machine σ → Machine σ)
    (trips : Nat → Registers → Bool) (breaks : Bool) :
    Act.attempt (.access change trips breaks) runner =
      if breaks then
        .error .broken { runner with machine := change runner.machine, poisoned := true, trips }
      else .ok .done { runner with machine := change runner.machine, trips } := by
  obtain ⟨machine, poisoned, settings, trips', worker, strays⟩ := runner
  cases poisoned <;> cases breaks <;> rfl

/-- The runner with a sound lock. -/
def heal (runner : Runner σ) : Runner σ :=
  { runner with poisoned := false }

theorem heal_proceed (runner : Runner σ) : runner.heal.proceed.heal = runner.proceed.heal := by
  obtain ⟨machine, poisoned, settings, trips, worker, strays⟩ := runner
  match worker with
  | none | some ⟨0, _, some _⟩ | some ⟨_ + 1, _, some _⟩ => rfl
  | some ⟨0, _, none⟩ => simp [heal, proceed]
  | some ⟨left + 1, steps, none⟩ =>
    simp only [heal, proceed]
    split
    · split <;> rfl
    · rfl

/-- Nobody can tell a poisoned lock from a sound one. -/
theorem perform_heal (runner : Runner σ) (act : Act σ) :
    act.answer runner.heal = act.answer runner ∧
      (runner.heal.perform act).heal = (runner.perform act).heal := by
  cases act with
  | look => exact ⟨rfl, runner.heal_proceed⟩
  | step =>
    rw [perform, perform, Act.answer, Act.answer]
    cases hstep : runner.machine.step with
    | ok instruction m =>
      by_cases htrips : runner.trips m.steps m.registers = true
      · have hhealed : Act.attempt .step runner.heal = _ :=
          attempt_step_of_trips hstep htrips
        rw [attempt_step_of_trips hstep htrips, hhealed]
        exact ⟨rfl, rfl⟩
      · have hstands := Bool.eq_false_iff.mpr htrips
        have hhealed : Act.attempt .step runner.heal = _ :=
          attempt_step_of_stands hstep hstands
        rw [attempt_step_of_stands hstep hstands, hhealed]
        exact ⟨rfl, rfl⟩
    | error cause m =>
      have hhealed : Act.attempt .step runner.heal = _ := attempt_step_of_error hstep
      rw [attempt_step_of_error hstep, hhealed]
      exact ⟨rfl, rfl⟩
  | access change trips breaks =>
    rw [perform, perform, Act.answer, Act.answer, attempt_access, attempt_access]
    cases breaks <;> exact ⟨rfl, rfl⟩
  | start | stop | release =>
    obtain ⟨machine, poisoned, settings, trips, worker, strays⟩ := runner
    cases poisoned with
    | false => exact ⟨rfl, rfl⟩
    | true =>
      match worker, strays with
      | none, [] | none, _ :: _ | some ⟨_, _, none⟩, [] | some ⟨_, _, none⟩, _ :: _
      | some ⟨_, _, some (.machine _)⟩, _ | some ⟨_, _, some .panicked⟩, _ => exact ⟨rfl, rfl⟩

theorem performAll_snoc (runner : Runner σ) (acts : List (Act σ)) (last : Act σ) :
    runner.performAll (acts ++ [last]) = (runner.performAll acts).perform last := by
  simp [performAll]

theorem heal_performAll {runner other : Runner σ} (h : runner.heal = other.heal)
    (acts : List (Act σ)) : (runner.performAll acts).heal = (other.performAll acts).heal := by
  induction acts using List.reverseRecOn with
  | nil => exact h
  | append_singleton acts last ih =>
    rw [performAll_snoc, performAll_snoc, ← (perform_heal _ last).2, ih, (perform_heal _ last).2]

theorem alike_of_heal {runner other : Runner σ} (h : runner.heal = other.heal) :
    Alike runner other := by
  intro acts
  have hreached := heal_performAll h acts
  generalize runner.performAll acts = reached at hreached ⊢
  generalize other.performAll acts = reached' at hreached ⊢
  have hmachine : reached.heal.machine = reached'.heal.machine := by rw [hreached]
  have hrunning : reached.heal.isRunning = reached'.heal.isRunning := by rw [hreached]
  refine ⟨hmachine, hrunning, fun act => ?_⟩
  rw [← (perform_heal reached act).1, hreached, (perform_heal reached' act).1]

/-- Stopping is refused exactly when a fault is left, and leaves no worker behind. -/
theorem stop_cases (runner : Runner σ) :
    (runner.ending = none ∧
      ∃ k machine, runner.stop = .ok k { runner with machine, worker := none }) ∨
    ∃ fault machine, runner.ending = some fault ∧
      runner.stop = .error fault { runner with machine, worker := none } := by
  obtain ⟨machine, poisoned, settings, trips, worker, strays⟩ := runner
  match worker with
  | none => exact .inl ⟨rfl, _, _, rfl⟩
  | some ⟨left, steps, none⟩ => exact .inl ⟨rfl, _, _, rfl⟩
  | some ⟨left, steps, some (.machine fault)⟩ => exact .inr ⟨_, _, rfl, rfl⟩
  | some ⟨left, steps, some .panicked⟩ => exact .inr ⟨_, _, rfl, rfl⟩

theorem start_of_stop_ok {runner : Runner σ} {k : Nat} {machine : Machine σ}
    (h : runner.stop = .ok k { runner with machine, worker := none }) :
    ∃ m, runner.start = .ok () { runner with machine := m, worker := some {} } :=
  ⟨_, bind_of_ok h⟩

theorem release_of_stop_ok {runner rest : Runner σ} {k : Nat} (h : runner.stop = .ok k rest)
    (hnone : rest.workers = []) : runner.release = .ok rest.machine rest := by
  have hget : (get : EStateM RunFault (Runner σ) (Runner σ)) rest = .ok rest rest := rfl
  refine ((bind_of_ok h).trans (bind_of_ok hget)).trans ?_
  rw [hnone, locked_eq]
  rfl

theorem attempt_of_stop_error {act : Act σ} (hcollects : act.collects = true)
    {runner rest : Runner σ} {fault : RunFault} (h : runner.stop = .error fault rest) :
    act.attempt runner = .error (.refused fault) rest := by
  cases act with
  | start => exact bind_of_error (adaptExcept_of_error (bind_of_error h))
  | stop => exact bind_of_error (adaptExcept_of_error h)
  | release => exact bind_of_error (adaptExcept_of_error (bind_of_error h))
  | _ => contradiction

/-- Without strays an act that collects is refused exactly when a fault is left, and what it leaves
is a new worker at most. -/
theorem collects_cases {act : Act σ} (hcollects : act.collects = true) {runner : Runner σ}
    (hstrays : runner.strays = []) :
    (runner.ending = none ∧ ∃ reply machine worker, worker.bind Worker.ending = none ∧
      act.attempt runner = .ok reply { runner with machine, worker }) ∨
    ∃ fault machine, runner.ending = some fault ∧
      act.attempt runner = .error (.refused fault) { runner with machine, worker := none } := by
  rcases runner.stop_cases with ⟨hending, k, machine, hstop⟩ | ⟨fault, machine, hending, hstop⟩
  · refine .inl ⟨hending, ?_⟩
    cases act with
    | start =>
      obtain ⟨m, hstart⟩ := start_of_stop_ok hstop
      exact ⟨_, m, some {}, rfl, bind_of_ok (adaptExcept_of_ok hstart)⟩
    | stop => exact ⟨_, machine, none, rfl, bind_of_ok (adaptExcept_of_ok hstop)⟩
    | release =>
      have hrelease := release_of_stop_ok hstop hstrays
      exact ⟨_, machine, none, rfl, bind_of_ok (adaptExcept_of_ok hrelease)⟩
    | _ => contradiction
  · exact .inr ⟨fault, machine, hending, attempt_of_stop_error hcollects hstop⟩

/-- An act that collects is answered with what is left of a run. -/
theorem answer_of_collects {act : Act σ} (hcollects : act.collects = true) {runner : Runner σ}
    (hstrays : runner.strays = []) (cause : CallFault) :
    act.answer runner = .error cause ↔
      ∃ fault, cause = .refused fault ∧ runner.ending = some fault := by
  rw [Act.answer]
  rcases collects_cases hcollects hstrays with
    ⟨hending, reply, machine, worker, -, hattempt⟩ | ⟨fault, machine, hending, hattempt⟩
  · simp [hattempt, hending, answerOf]
  · simp [hattempt, hending, answerOf, eq_comm]

theorem ending_of_collects {act : Act σ} (hcollects : act.collects = true) {runner : Runner σ}
    (hstrays : runner.strays = []) : (runner.perform act).ending = none := by
  rw [perform]
  rcases collects_cases hcollects hstrays with
    ⟨-, reply, machine, worker, hworker, hattempt⟩ | ⟨fault, machine, -, hattempt⟩
  · rw [hattempt]
    exact hworker
  · rw [hattempt]
    rfl

/-- Of the acts that do not collect, only a step and an access go wrong, by their own doing. -/
theorem answer_of_not_collects {act : Act σ} (hcollects : act.collects = false)
    (runner : Runner σ) (cause : CallFault) :
    act.answer runner = .error cause ↔ act.Spoils runner cause := by
  rw [Act.answer]
  cases act with
  | look =>
    constructor
    · nofun
    · nofun
  | step =>
    cases hstep : runner.machine.step with
    | ok instruction m =>
      by_cases htrips : runner.trips m.steps m.registers = true
      · rw [attempt_step_of_trips hstep htrips]
        constructor
        · rintro ⟨⟩
          exact .trips hstep htrips
        · rintro (hstep' | _)
          · rw [hstep] at hstep'
            contradiction
          · rfl
      · have hstands := Bool.eq_false_iff.mpr htrips
        rw [attempt_step_of_stands hstep hstands]
        constructor
        · nofun
        · rintro (hstep' | ⟨hstep', htrips'⟩)
          · rw [hstep] at hstep'
            contradiction
          · rw [hstep] at hstep'
            obtain ⟨-, rfl⟩ := EStateM.Result.ok.inj hstep'
            exact absurd htrips' htrips
    | error fault m =>
      rw [attempt_step_of_error hstep]
      constructor
      · rintro ⟨⟩
        exact .fails hstep
      · rintro (hstep' | ⟨hstep', -⟩)
        · rw [hstep] at hstep'
          obtain ⟨rfl, -⟩ := EStateM.Result.error.inj hstep'
          rfl
        · rw [hstep] at hstep'
          contradiction
  | access change trips breaks =>
    rw [attempt_access]
    cases breaks with
    | false =>
      constructor
      · nofun
      · nofun
    | true =>
      constructor
      · rintro ⟨⟩
        exact .breaks
      · rintro ⟨⟩
        rfl
  | _ => contradiction

/-- The runner with other workers. -/
def staff (runner : Runner σ) (worker : Option Worker) (strays : List Worker) : Runner σ :=
  { runner with worker, strays }

/-- A step of the runner itself and an access have nothing to do with workers. -/
theorem attempt_staff {act : Act σ} (hcollects : act.collects = false) (hlook : act ≠ .look)
    (runner : Runner σ) (worker : Option Worker) (strays : List Worker) :
    act.attempt (runner.staff worker strays) =
      mapState (fun rest => rest.staff worker strays) (act.attempt runner) := by
  cases act with
  | step =>
    cases hstep : runner.machine.step with
    | ok instruction m =>
      by_cases htrips : runner.trips m.steps m.registers = true
      · rw [attempt_step_of_trips hstep htrips]
        exact attempt_step_of_trips hstep htrips
      · have hstands := Bool.eq_false_iff.mpr htrips
        rw [attempt_step_of_stands hstep hstands]
        exact attempt_step_of_stands hstep hstands
    | error cause m =>
      rw [attempt_step_of_error hstep]
      exact attempt_step_of_error hstep
  | access change trips breaks =>
    rw [attempt_access, attempt_access]
    cases breaks <;> rfl
  | look | start | stop | release => contradiction

theorem perform_staff {act : Act σ} (hcollects : act.collects = false) (hlook : act ≠ .look)
    (runner : Runner σ) (worker : Option Worker) (strays : List Worker) :
    (runner.staff worker strays).perform act = (runner.perform act).staff worker strays := by
  rw [perform, attempt_staff hcollects hlook, finalState_mapState, perform]

/-- Such an act leaves the workers as they are. -/
theorem workers_perform {act : Act σ} (hcollects : act.collects = false) (hlook : act ≠ .look)
    (runner : Runner σ) :
    (runner.perform act).worker = runner.worker ∧ (runner.perform act).strays = runner.strays := by
  have hsame : runner.perform act = (runner.perform act).staff runner.worker runner.strays :=
    perform_staff hcollects hlook runner runner.worker runner.strays
  rw [hsame]
  exact ⟨rfl, rfl⟩

/-- Whoever makes a new worker has waited for the one before. -/
theorem strays_perform {runner : Runner σ} (hstrays : runner.strays = []) (act : Act σ) :
    (runner.perform act).strays = [] := by
  by_cases hcollects : act.collects = true
  · rw [perform]
    rcases collects_cases hcollects hstrays with
      ⟨-, reply, machine, worker, -, hattempt⟩ | ⟨fault, machine, -, hattempt⟩
    · rw [hattempt]
      exact hstrays
    · rw [hattempt]
      exact hstrays
  · by_cases hlook : act = .look
    · subst hlook
      have hlooks : Looks runner (runner.perform .look) := looks_proceed runner
      generalize runner.perform .look = next at hlooks ⊢
      cases hlooks <;> exact hstrays
    · have hnot : act.collects = false := Bool.eq_false_iff.mpr hcollects
      rw [(workers_perform hnot hlook runner).2, hstrays]

theorem strays_performAll {runner : Runner σ} (hstrays : runner.strays = [])
    (acts : List (Act σ)) : (runner.performAll acts).strays = [] := by
  induction acts using List.reverseRecOn with
  | nil => exact hstrays
  | append_singleton acts last ih =>
    rw [performAll_snoc]
    exact strays_perform ih last

omit [Watcher σ] in
theorem ending_of_running {runner : Runner σ} (h : runner.isRunning = true) :
    runner.ending = none := by
  obtain ⟨machine, poisoned, settings, trips, worker, strays⟩ := runner
  cases worker with
  | none => contradiction
  | some worker => exact Option.isNone_iff_eq_none.mp h

/-- An act leaves the fault of the run that it ends, or the one that was left before unless it
collects it. -/
theorem ending_perform {runner : Runner σ} (hstrays : runner.strays = []) (act : Act σ)
    (fault : RunFault) :
    (runner.perform act).ending = some fault ↔
      runner.endsWith act = some fault ∨
        runner.ending = some fault ∧ act.collects = false := by
  by_cases hrunning : runner.isRunning = true
  · have hnone := ending_of_running hrunning
    rw [endsWith, if_pos hrunning, hnone]
    simp
  · rw [endsWith, if_neg hrunning]
    by_cases hcollects : act.collects = true
    · rw [ending_of_collects hcollects hstrays, hcollects]
      simp
    · have hnot : act.collects = false := Bool.eq_false_iff.mpr hcollects
      have hworker : (runner.perform act).worker = runner.worker := by
        by_cases hlook : act = .look
        · subst hlook
          have hidle : runner.isRunning = false := Bool.eq_false_iff.mpr hrunning
          exact congrArg Runner.worker (proceed_of_not_running hidle)
        · exact (workers_perform hnot hlook runner).1
      rw [ending, hworker, hnot]
      simp [ending]

/-- What is left after a list of acts is the fault of the last run that ended, if no act after its
end has collected it. -/
theorem ending_performAll {runner : Runner σ} (hnew : runner.worker = none)
    (hstrays : runner.strays = []) (acts : List (Act σ)) (fault : RunFault) :
    (runner.performAll acts).ending = some fault ↔
      ∃ before act after, acts = before ++ act :: after ∧
        (runner.performAll before).endsWith act = some fault ∧
        ∀ later ∈ after, later.collects = false := by
  induction acts using List.reverseRecOn with
  | nil =>
    have hnone : runner.ending = none := by
      rw [ending, hnew]
      rfl
    simp [performAll, hnone]
  | append_singleton acts last ih =>
    rw [performAll_snoc, ending_perform (strays_performAll hstrays acts), ih]
    exact (exists_split_snoc
      (P := fun before act => (runner.performAll before).endsWith act = some fault)
      (Q := fun later => Act.collects later = false)).symm

section Look

variable {runner : Runner σ} {left steps : Nat} {instruction : Instruction} {cause : Fault}
  {m : Machine σ}

omit [Watcher σ] in
theorem isRunning_of_worker (hworker : runner.worker = some ⟨left, steps, none⟩) :
    runner.isRunning = true := by
  rw [isRunning, hworker]
  rfl

theorem proceed_of_trips (hworker : runner.worker = some ⟨left + 1, steps, none⟩)
    (hstep : runner.machine.step = .ok instruction m)
    (htrips : runner.trips m.steps m.registers = true) :
    runner.proceed =
      { runner with
        machine := m, poisoned := true, worker := some ⟨left, steps, some .panicked⟩ } := by
  obtain ⟨machine, poisoned, settings, trips, worker, strays⟩ := runner
  obtain rfl : worker = _ := hworker
  simp only at hstep htrips
  simp [proceed, hstep, htrips]

theorem proceed_of_error (hworker : runner.worker = some ⟨left + 1, steps, none⟩)
    (hstep : runner.machine.step = .error cause m) :
    runner.proceed =
      { runner with machine := m, worker := some ⟨left, steps, some (.machine cause)⟩ } := by
  obtain ⟨machine, poisoned, settings, trips, worker, strays⟩ := runner
  obtain rfl : worker = _ := hworker
  simp only at hstep
  simp [proceed, hstep]

end Look

/-- A run ends at a look for which its last instruction is next, and at nothing else. -/
theorem endsWith_iff {runner : Runner σ} (hstrays : runner.strays = []) {act : Act σ}
    {fault : RunFault} :
    runner.endsWith act = some fault ↔ act = .look ∧ runner.Nears fault := by
  constructor
  · intro h
    have hrunning : runner.isRunning = true := by
      by_contra hidle
      rw [endsWith, if_neg hidle] at h
      contradiction
    rw [endsWith, if_pos hrunning] at h
    have hcollects : act.collects = false := by
      by_contra hcollects
      rw [Bool.not_eq_false] at hcollects
      rw [ending_of_collects hcollects hstrays] at h
      contradiction
    have hlook : act = .look := by
      by_contra hlook
      have hnone := ending_of_running hrunning
      rw [ending, (workers_perform hcollects hlook runner).1] at h
      rw [ending, h] at hnone
      contradiction
    subst hlook
    refine ⟨rfl, ?_⟩
    have hlooks : Looks runner (runner.perform .look) := looks_proceed runner
    generalize runner.perform .look = next at hlooks h
    cases hlooks with
    | rests hidle =>
      rw [hidle] at hrunning
      contradiction
    | begins | steps => contradiction
    | breaks hworker hstep htrips =>
      obtain rfl := Option.some.inj h
      exact .tripping hworker hstep htrips
    | fails hworker hstep =>
      obtain rfl := Option.some.inj h
      exact .failing hworker hstep
  · rintro ⟨rfl, hnears⟩
    have hproceed : runner.perform .look = runner.proceed := rfl
    rw [endsWith, hproceed]
    rcases hnears with ⟨hworker, hstep⟩ | ⟨hworker, hstep, htrips⟩
    · rw [if_pos (isRunning_of_worker hworker), proceed_of_error hworker hstep]
      rfl
    · rw [if_pos (isRunning_of_worker hworker), proceed_of_trips hworker hstep htrips]
      rfl

omit [Watcher σ] in
theorem isRunning_staff_of_ended {worker : Worker} (hended : worker.ending.isSome = true)
    (runner : Runner σ) (strays : List Worker) :
    (runner.staff (some worker) strays).isRunning = false := by
  simpa [isRunning, staff, Option.isSome_iff_ne_none] using hended

omit [Watcher σ] in
theorem isRunning_of_no_worker {runner : Runner σ} (hnew : runner.worker = none) :
    runner.isRunning = false := by
  rw [isRunning, hnew]
  rfl

/-- A worker whose run has ended is not heard of until it is collected. -/
theorem perform_ended {runner : Runner σ} (hnew : runner.worker = none) {worker : Worker}
    (hended : worker.ending.isSome = true) (strays : List Worker) {act : Act σ}
    (hcollects : act.collects = false) :
    act.answer (runner.staff (some worker) strays) = act.answer runner ∧
    (runner.staff (some worker) strays).perform act =
      (runner.perform act).staff (some worker) strays ∧
    (runner.perform act).worker = none := by
  by_cases hlook : act = .look
  · subst hlook
    have hrests : runner.perform .look = runner :=
      proceed_of_not_running (isRunning_of_no_worker hnew)
    have hidle := isRunning_staff_of_ended hended runner strays
    rw [hrests]
    exact ⟨rfl, proceed_of_not_running hidle, hnew⟩
  · refine ⟨?_, perform_staff hcollects hlook runner _ strays, ?_⟩
    · rw [Act.answer, attempt_staff hcollects hlook, Act.answer]
      cases act.attempt runner <;> rfl
    · rw [(workers_perform hcollects hlook runner).1, hnew]

theorem performAll_ended {runner : Runner σ} (hnew : runner.worker = none) {worker : Worker}
    (hended : worker.ending.isSome = true) (strays : List Worker) {acts : List (Act σ)}
    (hacts : ∀ act ∈ acts, act.collects = false) :
    (runner.staff (some worker) strays).performAll acts =
      (runner.performAll acts).staff (some worker) strays ∧
    (runner.performAll acts).worker = none := by
  induction acts using List.reverseRecOn with
  | nil => exact ⟨rfl, hnew⟩
  | append_singleton acts last ih =>
    rw [List.forall_mem_append, List.forall_mem_singleton] at hacts
    obtain ⟨hreached, hworker⟩ := ih hacts.1
    obtain ⟨-, hlast, hworker'⟩ := perform_ended hworker hended strays hacts.2
    rw [performAll_snoc, performAll_snoc, hreached]
    exact ⟨hlast, hworker'⟩

/-- Whoever collects a worker whose step hook has broken down finds the runner without it. -/
theorem attempt_of_panicked {act : Act σ} (hcollects : act.collects = true) (runner : Runner σ)
    {worker : Worker} (hpanicked : worker.ending = some .panicked) (strays : List Worker) :
    act.attempt (runner.staff (some worker) strays) =
      .error (.refused .panicked) (runner.staff none strays) := by
  obtain ⟨left, steps, ending⟩ := worker
  obtain rfl : ending = some .panicked := hpanicked
  exact attempt_of_stop_error hcollects rfl

theorem goesOnAs_of_panicked {runner normal : Runner σ} (hheal : runner.heal = normal.heal)
    (hnew : runner.worker = none) (hstrays : runner.strays = []) {worker : Worker}
    (hpanicked : worker.ending = some .panicked) :
    GoesOnAs (runner.staff (some worker) []) normal := by
  have hended : worker.ending.isSome = true := by
    rw [hpanicked]
    rfl
  intro acts hacts
  obtain ⟨hreached, hworker⟩ := performAll_ended hnew hended [] hacts
  obtain ⟨hmachine, hrunning, hanswers⟩ := alike_of_heal hheal acts
  have hheal' := heal_performAll hheal acts
  have hstrays' := strays_performAll hstrays acts
  rw [hreached]
  generalize runner.performAll acts = reached at *
  refine ⟨hmachine, ?_, fun act => ⟨?_, ?_⟩⟩
  · rw [isRunning_staff_of_ended hended, ← hrunning, isRunning_of_no_worker hworker]
  · intro hcollects
    rw [(perform_ended hworker hended [] hcollects).1, hanswers]
  · intro hcollects
    have hattempt := attempt_of_panicked hcollects reached hpanicked []
    have hsame : reached.staff none [] = reached := by
      rw [← hworker, ← hstrays']
      rfl
    rw [Act.answer, perform, hattempt, hsame]
    exact ⟨rfl, alike_of_heal hheal'⟩

/-- A worker whose step hook breaks down leaves the completed step behind, and a runner that goes on
like one over this machine. -/
theorem goesOnAs_look {runner : Runner σ} (hstrays : runner.strays = []) {left steps : Nat}
    {instruction : Instruction} {m : Machine σ}
    (hworker : runner.worker = some ⟨left + 1, steps, none⟩)
    (hstep : runner.machine.step = .ok instruction m)
    (htrips : runner.trips m.steps m.registers = true) :
    (runner.perform .look).machine = m ∧
    (runner.perform .look).GoesOnAs
      { machine := m, settings := runner.settings, trips := runner.trips } := by
  let broken : Runner σ :=
    { machine := m, poisoned := true, settings := runner.settings, trips := runner.trips }
  have hlook : runner.perform .look = broken.staff (some ⟨left, steps, some .panicked⟩) [] := by
    change runner.proceed = _
    rw [proceed_of_trips hworker hstep htrips, hstrays]
    rfl
  have hheal : broken.heal =
      heal { machine := m, settings := runner.settings, trips := runner.trips } := rfl
  rw [hlook]
  exact ⟨rfl, goesOnAs_of_panicked hheal rfl rfl rfl⟩

theorem start_cases {runner : Runner σ} (hstrays : runner.strays = []) :
    (∃ fault rest, runner.start = .error fault rest ∧ rest.workers = []) ∨
      ∃ m, runner.start = .ok () { runner with machine := m, worker := some {} } := by
  rcases runner.stop_cases with ⟨-, k, machine, hstop⟩ | ⟨fault, machine, -, hstop⟩
  · exact .inr (start_of_stop_ok hstop)
  · exact .inl ⟨fault, _, bind_of_error hstop, hstrays⟩

/-- After a stop, refused or not, no worker is left and there is nothing to stop. -/
theorem stop_stop {runner : Runner σ} (hstrays : runner.strays = []) :
    (finalState runner.stop).workers = [] ∧
      (finalState runner.stop).stop = .ok 0 (finalState runner.stop) := by
  rcases runner.stop_cases with ⟨-, k, machine, hstop⟩ | ⟨fault, machine, -, hstop⟩
  · rw [hstop]
    exact ⟨hstrays, rfl⟩
  · rw [hstop]
    exact ⟨hstrays, rfl⟩

/-- After whatever list of acts there is at most one worker.  A request that collects goes wrong
exactly if it is the first of them since a run ended, and is answered with the fault of this run;
the other acts go wrong by their own doing only.  A run ends at a look, with the fault of a step or
with the step hook broken down.  A start that is refused makes no worker, and stopping leaves none.
A step hook that breaks down leaves the completed step behind, for the runner itself and for its
worker, and the runner goes on like one that has made this step by itself. -/
theorem life_cycle
    (machine : Machine σ) (settings : RunSettings) (trips : Nat → Registers → Bool)
    (acts : List (Act σ)) :
    let fresh : Runner σ := { machine, settings, trips }
    let now := fresh.performAll acts
    now.workers.length ≤ 1 ∧
    (∀ act : Act σ, act.collects = true → ∀ cause, act.answer now = .error cause ↔
      ∃ fault, cause = .refused fault ∧ ∃ before last after, acts = before ++ last :: after ∧
        (fresh.performAll before).endsWith last = some fault ∧
        ∀ later ∈ after, later.collects = false) ∧
    (∀ act : Act σ, act.collects = false → ∀ cause,
      act.answer now = .error cause ↔ act.Spoils now cause) ∧
    (∀ act fault, now.endsWith act = some fault ↔ act = .look ∧ now.Nears fault) ∧
    ((∃ fault rest, now.start = .error fault rest ∧ rest.workers = []) ∨
      ∃ m, now.start = .ok () { now with machine := m, worker := some {} }) ∧
    (finalState now.stop).workers = [] ∧
    (finalState now.stop).stop = .ok 0 (finalState now.stop) ∧
    ∀ instruction m, now.machine.step = .ok instruction m →
      now.trips m.steps m.registers = true →
        m.steps = now.machine.steps + 1 ∧
        ((now.machine.skip = false → instruction.jumps = false) →
          m.pc = now.machine.pc + UInt16.ofNat instruction.length) ∧
        (now.perform .step).machine = m ∧
        (now.perform .step).Alike { now with machine := m } ∧
        (now.Nears .panicked →
          (now.perform .look).machine = m ∧
          (now.perform .look).GoesOnAs
            { machine := m, settings := now.settings, trips := now.trips }) := by
  intro fresh now
  have hstrays : now.strays = [] := strays_performAll rfl acts
  obtain ⟨hstopped, hagain⟩ := stop_stop hstrays
  refine ⟨?_, ?_, fun act hcollects => answer_of_not_collects hcollects now,
    fun act fault => endsWith_iff hstrays, start_cases hstrays, hstopped, hagain, ?_⟩
  · rw [workers, hstrays, List.append_nil]
    exact Option.length_toList_le
  · intro act hcollects cause
    have hending := ending_performAll (rfl : fresh.worker = none) rfl acts
    rw [answer_of_collects hcollects hstrays]
    simp only [now, hending]
  · intro instruction m hstep htrips
    refine ⟨Guest.counted_of_step (Machine.guest_step_of_ok hstep),
      fun hstraight => (Machine.advances_of_step hstep hstraight).next, ?_, ?_, ?_⟩
    · rw [perform, attempt_step_of_trips hstep htrips]
      rfl
    · rw [perform, attempt_step_of_trips hstep htrips]
      exact alike_of_heal rfl
    · rintro (_ | ⟨hworker, -, -⟩)
      exact goesOnAs_look hstrays hworker hstep htrips

/-- A runner whose second instruction lies outside its memory. -/
def leaving : Runner Unit where
  machine := { bus := ⟨⟨#[0xc1c1], by decide⟩, ()⟩ }

/-- A runner that stands still, and whose step hook breaks down after the second step. -/
def hooked : Runner Unit where
  machine := { bus := ⟨⟨#[0x81c1], by decide⟩, ()⟩ }
  trips := fun steps _ => steps == 2

/-- Both ways in which a run can end.  Whoever collects is told, once, and a runner with a broken
step hook goes on from the completed step. -/
theorem life_cycle_two_endings :
    let acts : List (Act Unit) := [.start, .look, .look, .look]
    (Act.answer .stop (leaving.performAll acts) =
        .error (.refused (.machine (.memory (.outOfRange 16 1)))) ∧
      Act.answer .stop (leaving.performAll (acts ++ [.stop])) = .ok (.counted 0)) ∧
    Act.answer .start (hooked.performAll acts) = .error (.refused .panicked) ∧
      (hooked.performAll (acts ++ [.start])).workers = [] ∧
      ∃ m, m.steps = 2 ∧ (hooked.performAll acts).machine = m ∧
        (hooked.performAll acts).GoesOnAs { hooked with machine := m } := by
  have hleft : (leaving.performAll [.start, .look, .look]).endsWith .look =
    some (.machine (.memory (.outOfRange 16 1))) := rfl
  have hbroke : (hooked.performAll [.start, .look, .look]).endsWith .look = some .panicked := rfl
  obtain ⟨-, hfault, -⟩ :=
    life_cycle leaving.machine leaving.settings leaving.trips [.start, .look, .look, .look]
  obtain ⟨-, hpanic, -⟩ :=
    life_cycle hooked.machine hooked.settings hooked.trips [.start, .look, .look, .look]
  obtain ⟨-, -, -, -, -, -, -, hgoes⟩ :=
    life_cycle hooked.machine hooked.settings hooked.trips [.start, .look, .look]
  obtain ⟨-, -, -, -, hgoes⟩ := hgoes _ _ rfl rfl
  refine ⟨⟨?_, rfl⟩, ?_, rfl, _, rfl, hgoes (.tripping rfl rfl rfl)⟩
  · exact (hfault .stop rfl _).mpr ⟨_, rfl, [.start, .look, .look], .look, [], rfl, hleft, nofun⟩
  · exact (hpanic .start rfl _).mpr ⟨_, rfl, [.start, .look, .look], .look, [], rfl, hbroke, nofun⟩

end Runner

end WordMachine
