import WordMachine.Description
import WordMachine.Machine.Step

/-!
# Running and stopping

A runner executes single steps itself and leaves continuous runs to a worker.  The worker looks at a
stop flag before every batch and before every instruction of a batch, so a run is told by the number
of looks that find the flag down.  It ends by itself when an instruction fails or when the step hook
breaks down; what ended it is kept until the run is stopped.  Whoever works on the machine takes the
lock on it.  The lock is poisoned when somebody breaks down meanwhile, and is taken all the same.
-/

namespace WordMachine

/-- How a continuous run is divided. -/
structure RunSettings where
  batchSize : Nat := 1000
  /-- The pause between batches in milliseconds. -/
  tick : Nat := 1
  deriving DecidableEq

/-- A run that has been started. -/
structure Worker where
  /-- Instructions left in the current batch; none left means between batches. -/
  left : Nat := 0
  /-- Instructions executed by the run. -/
  steps : Nat := 0
  /-- What ended the run, if it has ended by itself. -/
  ending : Option RunFault := none
  deriving DecidableEq

/-- Why a call of a runner has no result. -/
inductive CallFault
  /-- It is refused with a fault. -/
  | refused (fault : RunFault)
  /-- The step hook breaks down in it, or what the caller does with the machine, and there is no
  answer. -/
  | broken
  deriving DecidableEq

/-- A machine with run control. -/
structure Runner (σ : Type) where
  machine : Machine σ
  /-- Whether somebody broke down at work on the machine and left its lock poisoned. -/
  poisoned : Bool := false
  settings : RunSettings := {}
  /-- Whether the step hook breaks down after a step with the given count and registers. -/
  trips : Nat → Registers → Bool := fun _ _ => false
  /-- The run in flight or ended but not yet stopped. -/
  worker : Option Worker := none
  /-- Workers that nobody can stop or wait for any more. -/
  strays : List Worker := []

namespace Runner

variable {σ : Type} {α : Type}

/-- Takes the lock on a machine.  A poisoned lock gives the machine as a fault. -/
@[inline]
def lock (machine : Machine σ) (poisoned : Bool) : Except (Machine σ) (Machine σ) :=
  if poisoned then .error machine else .ok machine

/-- The machine behind its lock, whether the lock is poisoned or not. -/
@[inline]
def locked (machine : Machine σ) (poisoned : Bool) : Machine σ :=
  match lock machine poisoned with
  | .ok machine => machine
  | .error machine => machine

@[simp]
theorem locked_eq (machine : Machine σ) (poisoned : Bool) : locked machine poisoned = machine := by
  cases poisoned <;> rfl

/-- All workers that there are. -/
def workers (runner : Runner σ) : List Worker :=
  runner.worker.toList ++ runner.strays

def isRunning (runner : Runner σ) : Bool :=
  runner.worker.any fun worker => worker.ending.isNone

/-- Lets the caller work on the machine.  Work that breaks down gives nothing. -/
def withMachine (work : Machine σ → Option α × Machine σ) : EStateM CallFault (Runner σ) α
  | ⟨machine, poisoned, settings, trips, worker, strays⟩ =>
    match work (locked machine poisoned) with
    | (some a, machine) => .ok a ⟨machine, poisoned, settings, trips, worker, strays⟩
    | (none, machine) => .error .broken ⟨machine, true, settings, trips, worker, strays⟩

variable [Watcher σ]

def announce (event : Event) : Runner σ → Runner σ
  | ⟨machine, poisoned, settings, trips, worker, strays⟩ =>
    ⟨machine.announce event, poisoned, settings, trips, worker, strays⟩

/-- Executes one instruction without a worker.  If the step hook breaks down after it, the
instruction is executed all the same. -/
def step : EStateM CallFault (Runner σ) Instruction
  | ⟨machine, poisoned, settings, trips, worker, strays⟩ =>
    match (locked machine poisoned).step with
    | .ok instruction machine =>
      if trips machine.steps machine.registers then
        .error .broken ⟨machine, true, settings, trips, worker, strays⟩
      else
        .ok instruction ⟨machine, poisoned, settings, trips, worker, strays⟩
    | .error fault machine =>
      .error (.refused (.machine fault)) ⟨machine, poisoned, settings, trips, worker, strays⟩

/-- Lets go of the worker, which goes astray unless it is waited for. -/
def detach : Runner σ → Runner σ
  | ⟨machine, poisoned, settings, trips, worker, strays⟩ =>
    ⟨machine, poisoned, settings, trips, none, worker.toList ++ strays⟩

/-- Waits until the worker that was let go of last is gone. -/
def join : Runner σ → Runner σ
  | ⟨machine, poisoned, settings, trips, worker, strays⟩ =>
    ⟨machine, poisoned, settings, trips, worker, strays.tail⟩

/-- Stops the run, if there is one, waits for its worker, and gives back how many instructions it
executed.  A run that has ended by itself gives its fault instead. -/
def stop : EStateM RunFault (Runner σ) Nat := fun runner =>
  match runner.worker with
  | none => .ok 0 runner
  | some worker =>
    let runner := runner.detach.join
    match worker.ending with
    | none => .ok worker.steps (runner.announce (.runStopped worker.steps))
    | some (.machine fault) => .error (.machine fault) (runner.announce (.runFailed fault))
    | some .panicked => .error .panicked runner

/-- Makes a new worker, and lets go of one that is still there. -/
def spawn (runner : Runner σ) : Runner σ :=
  { runner.detach with worker := some {} }

/-- Starts a run, after stopping the one before it.  If that one had ended in a fault, the fault is
given back and no run is started. -/
def start : EStateM RunFault (Runner σ) Unit := do
  let _ ← stop
  modify fun runner =>
    (runner.announce (.runStarted runner.settings.batchSize runner.settings.tick)).spawn

/-- What the worker does after one look that finds the stop flag down.  It takes the lock for a
batch, and leaves it poisoned if the step hook breaks down. -/
def proceed : Runner σ → Runner σ
  | ⟨machine, poisoned, settings, trips, some ⟨0, steps, none⟩, strays⟩ =>
    ⟨locked machine poisoned, poisoned, settings, trips, some ⟨settings.batchSize, steps, none⟩,
      strays⟩
  | ⟨machine, poisoned, settings, trips, some ⟨left + 1, steps, none⟩, strays⟩ =>
    match machine.step with
    | .ok _ machine =>
      if trips machine.steps machine.registers then
        ⟨machine, true, settings, trips, some ⟨left, steps, some .panicked⟩, strays⟩
      else
        ⟨machine, poisoned, settings, trips, some ⟨left, steps + 1, none⟩, strays⟩
    | .error fault machine =>
      ⟨machine, poisoned, settings, trips, some ⟨left, steps, some (.machine fault)⟩, strays⟩
  | runner => runner

/-- Lets the worker look at the stop flag so many times and find it down. -/
def advance : Nat → Runner σ → Runner σ
  | 0, runner => runner
  | looks + 1, runner => if runner.isRunning then advance looks runner.proceed else runner

/-- Stops the run and hands the machine back, if no worker has a part in it any more. -/
def release : EStateM RunFault (Runner σ) (Machine σ) := do
  let _ ← stop
  let runner ← get
  match runner.workers with
  | [] => return locked runner.machine runner.poisoned
  | _ => throw .panicked

/-- Gives the runner up.  A run that had ended in a fault is told of. -/
def abandon (runner : Runner σ) : Machine σ :=
  match stop runner with
  | .ok _ runner => runner.machine
  | .error fault runner => (runner.announce (.runAbandoned fault)).machine

/-- A runner written out. -/
def describe (runner : Runner σ) : String :=
  Description.record "Driver"
    [("config", Description.record "RunConfig"
        [("batch_size", toString runner.settings.batchSize),
          ("tick", Description.duration runner.settings.tick)]),
      ("running", toString runner.isRunning)]

end Runner

end WordMachine
