import WordMachine.Device.Host
import WordMachine.Disassembly
import WordMachine.Listing
import WordMachine.Machine.Step
import WordMachine.Settings.Basic

/-!
# The embedded machine

A machine inside a host program, which loads listings into it, lets it run a while at a time, and
looks at its registers, its memory and its devices in between.  It has a full address space.
-/

namespace WordMachine

/-- Why an operation on an embedded machine fails. -/
inductive EmbeddedFault
  | listing (fault : ListingFault)
  | memory (fault : MemoryFault)
  | machine (fault : Fault)
  | device (fault : DeviceFault)
  deriving DecidableEq

def EmbeddedFault.message : EmbeddedFault → String
  | listing fault => fault.message
  | memory fault => fault.message
  | machine fault => fault.message
  | device fault => fault.message

/-- A machine with the program that a reset loads. -/
structure Embedded (σ : Type) where
  machine : Machine σ
  program : List Word := []

namespace Embedded

variable {σ : Type} {ε α : Type}

def create (watcher : σ) : Embedded σ where
  machine := Machine.powerOn addressSpace watcher

@[inline]
def onMachine
    (cause : ε → EmbeddedFault) (operation : EStateM ε (Machine σ) α) :
    EStateM EmbeddedFault (Embedded σ) α
  | ⟨machine, program⟩ =>
    match operation machine with
    | .ok a machine => .ok a ⟨machine, program⟩
    | .error e machine => .error (cause e) ⟨machine, program⟩

variable [Hosted σ]

/-- Resets machine and devices and loads the program again. -/
def reset : EStateM EmbeddedFault (Embedded σ) Unit := fun embedded =>
  onMachine .memory (Machine.restart embedded.program) embedded

/-- Takes the program of a listing and resets.  Gives back the number of words.  A listing that
cannot be read changes nothing. -/
def loadListing (text : String) : EStateM EmbeddedFault (Embedded σ) Nat := fun embedded =>
  match Listing.ofString text with
  | .error fault => .error (.listing fault) embedded
  | .ok listing =>
    let load : EStateM EmbeddedFault (Embedded σ) Nat := do
      reset
      return (← get).program.length
    load { embedded with program := listing.words }

/-- Executes one instruction and gives back its text as it stood in memory. -/
def step : EStateM EmbeddedFault (Embedded σ) String := fun embedded =>
  let text := (Disassembly.head (embedded.machine.window embedded.machine.pc)).1
  let execute : EStateM EmbeddedFault (Embedded σ) String := do
    let _ ← onMachine .machine Machine.step
    return text
  execute embedded

/-- Executes a batch of instructions and gives back the step count. -/
def run (count : Nat) : EStateM EmbeddedFault (Embedded σ) Nat := do
  let _ ← onMachine .machine (Machine.run count)
  return (← get).machine.steps

/-- The register with a given number, the general ones first. -/
def register? (embedded : Embedded σ) (index : Nat) : Option Word :=
  Register.all[index]?.map embedded.machine.registers.get

def pressKey (key : Word) : EStateM EmbeddedFault (Embedded σ) Unit :=
  onMachine .device (Machine.pressKey key)

def receive (packet : Packet) : EStateM EmbeddedFault (Embedded σ) Unit :=
  onMachine .device (Machine.receive packet)

/-- Collects the packets that were sent, each as its receiver and its data in turn. -/
def drain : EStateM EmbeddedFault (Embedded σ) (List Word) := do
  let packets ← onMachine .device Machine.drain
  return packets.flatMap fun packet => [packet.peer, packet.data]

/-- Answers whether the display was drawn to since the last question. -/
def displayDirty (embedded : Embedded σ) : Bool × Embedded σ :=
  let dirty := embedded.machine.devices.display.dirty
  (dirty, { embedded with
    machine := embedded.machine.onDevices fun devices =>
      { devices with display := devices.display.takeDirty.2 } })

end Embedded

end WordMachine
