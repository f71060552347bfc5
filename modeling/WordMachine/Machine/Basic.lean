import WordMachine.Bus
import WordMachine.Instruction.Encoding

/-!
# The machine

Registers over a memory bus, with a count of completed instructions, the flag that skips the next
instruction and the length of the current one as far as it has been read.  Operations that can fail
are actions: they end with a result or with a fault, and in both cases with a machine.
-/

namespace WordMachine

/-- A machine whose memory is watched by a `σ`. -/
structure Machine (σ : Type) where
  registers : Registers := {}
  bus : Bus σ
  /-- Completed instructions, skipped ones included. -/
  steps : Nat := 0
  /-- Whether the next instruction is to be skipped. -/
  skip : Bool := false
  /-- Words of the current instruction that have been read. -/
  span : Word := 1

/-- An operation on a machine that may fail. -/
abbrev Action (σ : Type) (α : Type) := EStateM Fault (Machine σ) α

namespace Machine

variable {σ : Type} {ε α : Type}

def powerOn (capacity : Nat) (watcher : σ) : Machine σ where
  bus := ⟨Memory.blank capacity, watcher⟩

def memory (m : Machine σ) : Memory :=
  m.bus.memory

def watcher (m : Machine σ) : σ :=
  m.bus.watcher

def pc (m : Machine σ) : Word :=
  m.registers.pc

@[inline]
def onBus (operation : EStateM ε (Bus σ) α) : EStateM ε (Machine σ) α
  | ⟨registers, bus, steps, skip, span⟩ =>
    match operation bus with
    | .ok a bus => .ok a ⟨registers, bus, steps, skip, span⟩
    | .error e bus => .error e ⟨registers, bus, steps, skip, span⟩

@[inline]
def onRegisters (f : Registers → Registers) : Machine σ → Machine σ
  | ⟨registers, bus, steps, skip, span⟩ => ⟨f registers, bus, steps, skip, span⟩

@[inline]
def onWatcher (f : σ → σ) : Machine σ → Machine σ
  | ⟨registers, ⟨memory, watcher⟩, steps, skip, span⟩ =>
    ⟨registers, ⟨memory, f watcher⟩, steps, skip, span⟩

def announce [Watcher σ] (event : Event) : Machine σ → Machine σ :=
  onWatcher (Watcher.observe event)

def load [Watcher σ] (program : List Word) : EStateM MemoryFault (Machine σ) Unit :=
  onBus (Bus.load program)

/-- Zeroes registers and memory and forgets what the machine was doing.  The watcher is not told. -/
def reset [Watcher σ] : Machine σ → Machine σ
  | ⟨_, bus, _, _, _⟩ => { bus := bus.clear }

/-- The three words from an address on, where words past the capacity count as zero. -/
def window (m : Machine σ) (address : Word) : List Word :=
  [m.memory.getD address.toNat, m.memory.getD (address + 1).toNat,
    m.memory.getD (address + 2).toNat]

end Machine

end WordMachine
