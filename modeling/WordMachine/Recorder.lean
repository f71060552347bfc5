import WordMachine.Event

/-!
# The recorder

A watcher that writes down every access, and every completed step while it listens to them.
-/

namespace WordMachine

/-- One access to memory. -/
inductive Access
  | read (address value : Word)
  | wrote (address value : Word)
  deriving DecidableEq

/-- What has been seen of a machine. -/
structure Recorder where
  accesses : Array Access := #[]
  /-- Whether completed steps are written down. -/
  listening : Bool := false
  /-- The completed steps so far: the step count and the registers after each. -/
  calls : Array (Nat × Registers) := #[]

namespace Recorder

def onEvent : Event → Recorder → Recorder
  | .read address value, ⟨accesses, listening, calls⟩ =>
    ⟨accesses.push (.read address value), listening, calls⟩
  | .wrote address value, ⟨accesses, listening, calls⟩ =>
    ⟨accesses.push (.wrote address value), listening, calls⟩
  | .stepped report, ⟨accesses, listening, calls⟩ =>
    ⟨accesses, listening,
      if listening then calls.push (report.steps, report.registers) else calls⟩
  | _, recorder => recorder

/-- Starts with an empty record and goes on listening as before. -/
def fresh (recorder : Recorder) : Recorder where
  listening := recorder.listening

end Recorder

instance : Watcher Recorder where
  observe := Recorder.onEvent

end WordMachine
