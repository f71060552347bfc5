import WordMachine.Device.Host
import WordMachine.Disassembly
import WordMachine.Machine.Step

/-!
# The debugger

A machine with the program it was loaded with, stepped or run in batches by the user, who can also
type on its keyboard.  There is no hub to pass packets on to, so they are collected after every
step and every batch, counted, and the last one is kept.
-/

namespace WordMachine

/-- The state of a debugging session. -/
structure Debugger (σ : Type) where
  machine : Machine σ
  /-- The program that a reset loads again. -/
  program : List Word
  /-- Instructions executed by a tick while running. -/
  batchSize : Nat
  /-- Whether ticks execute instructions. -/
  running : Bool := false
  /-- Whether keys go to the keyboard of the machine. -/
  capture : Bool := false
  quit : Bool := false
  /-- What the last operation had to say. -/
  status : String := "Ready. Press 's' to step, 'r' to run, 'q' to quit."
  /-- Rows that the view of memory leaves out at its top. -/
  scroll : Nat := 0
  sentTotal : Nat := 0
  lastSent : Option Packet := none

namespace Debugger

variable {σ : Type} {ε α : Type}

/-- Opens a session on a machine with its program loaded.  A tick executes at least one
instruction. -/
def start (machine : Machine σ) (program : List Word) (batchSize : Nat) : Debugger σ where
  machine := machine
  program := program
  batchSize := max batchSize 1

@[inline]
def onMachine (operation : EStateM ε (Machine σ) α) : EStateM ε (Debugger σ) α
  | ⟨machine, program, batchSize, running, capture, quit, status, scroll, sentTotal, lastSent⟩ =>
    match operation machine with
    | .ok a machine =>
      .ok a ⟨machine, program, batchSize, running, capture, quit, status, scroll, sentTotal,
        lastSent⟩
    | .error e machine =>
      .error e ⟨machine, program, batchSize, running, capture, quit, status, scroll, sentTotal,
        lastSent⟩

def say (status : String) (debugger : Debugger σ) : Debugger σ :=
  { debugger with status }

/-- Shows a text and stops running. -/
def halt (status : String) (debugger : Debugger σ) : Debugger σ :=
  { debugger with status, running := false }

def count (packets : List Packet) (debugger : Debugger σ) : Debugger σ :=
  { debugger with
    sentTotal := debugger.sentTotal + packets.length
    lastSent := packets.getLast?.or debugger.lastSent }

variable [Hosted σ]

def deliver (debugger : Debugger σ) : Debugger σ :=
  match onMachine Machine.drain debugger with
  | .ok packets debugger => debugger.count packets
  | .error fault debugger => debugger.halt ("Network error: " ++ fault.message)

def step (debugger : Debugger σ) : Debugger σ :=
  let pc := debugger.machine.pc
  let text := (Disassembly.head (debugger.machine.window pc)).1
  match onMachine Machine.step debugger with
  | .ok _ debugger => (debugger.say ("PC=" ++ Hex.text 4 pc.toNat ++ ": " ++ text)).deliver
  | .error fault debugger => (debugger.halt ("Error: " ++ fault.message)).deliver

/-- Lets ticks execute instructions. -/
def run (debugger : Debugger σ) : Debugger σ :=
  { debugger with running := true, status := "Running..." }

/-- Keeps ticks from executing instructions. -/
def pause (debugger : Debugger σ) : Debugger σ :=
  debugger.halt ("Paused after " ++ toString debugger.machine.steps ++ " steps.")

/-- Executes a batch of instructions while running. -/
def tick (debugger : Debugger σ) : Debugger σ :=
  if debugger.running then
    match onMachine (Machine.run debugger.batchSize) debugger with
    | .ok _ debugger => debugger.deliver
    | .error fault debugger =>
      let pc := Hex.text 4 debugger.machine.pc.toNat
      (debugger.halt ("Stopped at PC=" ++ pc ++ ": " ++ fault.message)).deliver
  else
    debugger

/-- Gives the keys to the machine or takes them back. -/
def toggleCapture (debugger : Debugger σ) : Debugger σ :=
  if debugger.capture then
    { debugger with capture := false, status := "Keyboard released." }
  else
    { debugger with capture := true, status := "Keyboard captured. Esc to release." }

def pressKey (key : Word) (debugger : Debugger σ) : Debugger σ :=
  match onMachine (Machine.pressKey key) debugger with
  | .ok _ debugger => debugger
  | .error fault debugger => debugger.say ("Key dropped: " ++ fault.message)

/-- Begins the session anew with the program loaded again. -/
def reset (debugger : Debugger σ) : Debugger σ :=
  match onMachine (Machine.restart debugger.program) debugger with
  | .ok _ debugger => restart "Reset. Ready." debugger
  | .error fault debugger => restart ("Reload failed: " ++ fault.message) debugger
where
  /-- The first state of a session, except that captured keys stay captured. -/
  restart (status : String) (debugger : Debugger σ) : Debugger σ :=
    { debugger with
      running := false, status, scroll := 0, sentTotal := 0, lastSent := none }

structure CodeLine where
  address : Word
  text : String
  /-- Whether it is the next to be executed. -/
  isCurrent : Bool
  deriving DecidableEq

/-- The instructions from an address on, up to the end of memory. -/
def codeFrom (machine : Machine σ) (address : Word) (isCurrent : Bool) : Nat → List CodeLine
  | 0 => []
  | lines + 1 =>
    if address.toNat < machine.memory.capacity then
      let (text, length) := Disassembly.head (machine.window address)
      ⟨address, text, isCurrent⟩ ::
        codeFrom machine (address + UInt16.ofNat length) false lines
    else
      []

def code (debugger : Debugger σ) (lines : Nat) : List CodeLine :=
  codeFrom debugger.machine debugger.machine.pc true lines

/-- The rows of the memory view: those stored to and, in its place among them, that of the program
counter. -/
def memoryRows (debugger : Debugger σ) : List Word :=
  let pc := debugger.machine.pc
  insertAscending (pc - pc % 8) debugger.machine.devices.touchedRows

end Debugger

end WordMachine
