import WordMachine.Description
import WordMachine.Device.Peripherals
import WordMachine.Recorder

/-!
# The journal

A watcher that keeps another watcher and writes notes of what happens in front of it.  Most notes
come from events alone; what a store means to the network card depends on what the card held
before it.
-/

namespace WordMachine

/-- How much a note matters. -/
inductive Level
  | trace | debug | warn
  deriving DecidableEq

/-- The word that marks a level. -/
def Level.mark : Level → String
  | trace => "TRACE"
  | debug => "DEBUG"
  | warn => "WARN"

/-- A note in the journal. -/
inductive Note
  | stepped (report : StepReport)
  /-- An instruction with a reserved opcode was executed. -/
  | reserved (code : UInt8) (pc : Word)
  /-- A batch was broken off. -/
  | aborted (completed : Nat) (pc : Word) (fault : Fault)
  | delivered (sender data slot : Word)
  | sent (packet : Packet)
  /-- A packet was lost from a full outbox. -/
  | lost (packet : Packet)
  /-- A data word was stored to a pair without a receiver. -/
  | unaddressed (address data : Word)
  | runStarted (batchSize tick : Nat)
  | runStopped (steps : Nat)
  | runFailed (fault : Fault)
  /-- A runner was given up with a fault. -/
  | runAbandoned (fault : RunFault)

namespace Note

def level : Note → Level
  | stepped _ => .trace
  | reserved .. | delivered .. | sent _ | runStarted .. | runStopped _ => .debug
  | aborted .. | lost _ | unaddressed .. | runFailed _ | runAbandoned _ => .warn

def origin : Note → String
  | stepped _ | reserved .. | aborted .. => "dcpu::cpu::execute"
  | delivered .. => "dcpu::devices"
  | sent _ | lost _ | unaddressed .. => "dcpu::devices::network"
  | runStarted .. | runStopped _ | runFailed _ | runAbandoned _ => "dcpu::cpu::driver"

def message : Note → String
  | stepped _ => "step"
  | reserved .. => "reserved non-basic opcode executed as no-op"
  | aborted .. => "batch aborted"
  | delivered .. => "packet received"
  | sent _ => "packet sent"
  | lost _ => "outbox full, oldest packet dropped"
  | unaddressed .. => "outbound pair has no receiver, dropped"
  | runStarted .. => "starting run"
  | runStopped _ => "run stopped"
  | runFailed _ => "run ended with an error"
  | runAbandoned _ => "run failed before the driver was dropped"

def fields : Note → List (String × String)
  | stepped report =>
    [("pc", Hex.marked 4 report.pc.toNat), ("word", Hex.marked 4 report.word.toNat),
      ("len", toString report.length), ("skipped", toString report.skipped),
      ("instr", report.instruction.describe)]
  | reserved code pc => [("code", Hex.marked 2 code.toNat), ("pc", Hex.marked 4 pc.toNat)]
  | aborted completed pc fault =>
    [("completed", toString completed), ("pc", Hex.marked 4 pc.toNat),
      ("error", fault.message)]
  | delivered sender data slot =>
    [("from", toString sender), ("data", toString data), ("slot", Hex.marked 4 slot.toNat)]
  | sent packet | lost packet =>
    [("to", toString packet.peer), ("data", toString packet.data)]
  | unaddressed address data =>
    [("address", Hex.marked 4 address.toNat), ("data", toString data)]
  | runStarted batchSize tick =>
    [("batch_size", toString batchSize), ("tick", Description.duration tick)]
  | runStopped steps => [("steps", toString steps)]
  | runFailed fault => [("error", fault.message)]
  | runAbandoned fault => [("error", fault.message)]

def render (note : Note) : String :=
  note.level.mark ++ " " ++ note.origin ++ ": " ++ note.message ++
    String.join (note.fields.map fun field => " " ++ field.1 ++ "=" ++ field.2)

/-- The note of a reserved opcode, if the instruction has one and was executed. -/
def ofReserved (report : StepReport) : List Note :=
  match report.skipped, report.instruction with
  | false, .special (.reserved code) _ => [reserved code report.pc]
  | _, _ => []

/-- The notes that an event brings by itself. -/
def ofEvent : Event → List Note
  | .read .. | .wrote .. => []
  | .stepped report => ofReserved report ++ [stepped report]
  | .batchAborted completed pc fault => [aborted completed pc fault]
  | .delivered sender data slot => [delivered sender data slot]
  | .runStarted batchSize tick => [runStarted batchSize tick]
  | .runStopped steps => [runStopped steps]
  | .runFailed fault => [runFailed fault]
  | .runAbandoned fault => [runAbandoned fault]

end Note

/-- The notes that a store brings at a network card. -/
def NetworkCard.notes (card : NetworkCard) (address value : Word) : List Note :=
  match offset? address with
  | none => []
  | some k =>
    let peer := card.receiver k
    if k.val % 2 = 0 then
      []
    else if peer = 0 then
      if value = 0 then [] else [.unaddressed address value]
    else
      let lost := if card.outbox.length = outboxLimit then card.outbox.take 1 else []
      lost.map .lost ++ [.sent ⟨peer, value⟩]

/-- A watcher that knows which notes an event brings. -/
class Narrator (σ : Type) extends Watcher σ where
  /-- The notes, from the state before the event. -/
  notes : Event → σ → List Note

instance : Narrator Unit where
  notes event _ := Note.ofEvent event

instance : Narrator Recorder where
  notes event _ := Note.ofEvent event

instance : Narrator Peripherals where
  notes
    | .wrote address value, devices => devices.network.notes address value
    | event, _ => Note.ofEvent event

/-- A watcher with a journal of what happens in front of it. -/
structure Journal (σ : Type) where
  watcher : σ
  /-- Whether notes are being taken. -/
  recording : Bool
  notes : Array Note := #[]

namespace Journal

variable {σ : Type}

/-- Writes the notes of an event and passes it on. -/
def onEvent [Narrator σ] (event : Event) : Journal σ → Journal σ
  | ⟨watcher, false, notes⟩ => ⟨Watcher.observe event watcher, false, notes⟩
  | ⟨watcher, true, notes⟩ =>
    let added := Narrator.notes event watcher
    ⟨Watcher.observe event watcher, true, added.foldl Array.push notes⟩

/-- Writes notes while the journal is being kept. -/
def write (added : List Note) : Journal σ → Journal σ
  | ⟨watcher, recording, notes⟩ =>
    ⟨watcher, recording, if recording then added.foldl Array.push notes else notes⟩

def onWatcher (f : σ → σ) : Journal σ → Journal σ
  | ⟨watcher, recording, notes⟩ => ⟨f watcher, recording, notes⟩

def lines (journal : Journal σ) : List String :=
  journal.notes.toList.map Note.render

end Journal

instance {σ : Type} [Narrator σ] : Watcher (Journal σ) where
  observe := Journal.onEvent

instance : Hosted (Journal Peripherals) where
  devices journal := journal.watcher
  onDevices := Journal.onWatcher

end WordMachine
