import WordMachine.Fault
import WordMachine.Instruction.Basic

/-!
# Events

Everything that a machine tells whoever watches it.  Accesses to memory are told one by one, in the
order in which they happen and only when they succeed; a read does not change memory, and a write is
told after the word is stored.
-/

namespace WordMachine

/-- What a completed instruction did. -/
structure StepReport where
  /-- Where the instruction stands. -/
  pc : Word
  word : Word
  /-- Its length in words, as read. -/
  length : Word
  /-- Whether a failed test before it kept it from being executed. -/
  skipped : Bool
  instruction : Instruction
  /-- The step count, with this instruction. -/
  steps : Nat
  registers : Registers

/-- Something a machine tells. -/
inductive Event
  | read (address value : Word)
  | wrote (address value : Word)
  | stepped (report : StepReport)
  /-- A batch of steps has been broken off by a fault. -/
  | batchAborted (completed : Nat) (pc : Word) (fault : Fault)
  /-- A packet has been put into the inbound ring at `slot`. -/
  | delivered (sender data slot : Word)
  /-- A run has been started; `tick` is its pause between batches in milliseconds. -/
  | runStarted (batchSize tick : Nat)
  /-- A run has been stopped after so many steps. -/
  | runStopped (steps : Nat)
  | runFailed (fault : Fault)
  /-- A runner has been given up while it still held the fault of its run. -/
  | runAbandoned (fault : RunFault)

/-- Whoever watches a machine has a state of type `σ` that every event may change. -/
class Watcher (σ : Type) where
  observe : Event → σ → σ

instance : Watcher Unit where
  observe _ _ := ()

end WordMachine
