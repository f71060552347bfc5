import WordMachine.Machine.Basic

/-!
# Operands at work

Resolving an operand finds its place and its value, reading the operand's own word and then the
word at its address.  A stack operand finds its place as the stack pointer stands; the pointer
itself moves only when the instruction is executed.
-/

namespace WordMachine

/-- Where a resolved operand can be stored to. -/
inductive Place
  | register (r : Register)
  | memory (address : Word)
  /-- Nowhere: the operand is a literal. -/
  | nowhere
  deriving DecidableEq

/-- An operand with its place and its value. -/
structure Resolved where
  operand : Operand
  place : Place
  value : Word
  deriving DecidableEq

namespace Machine

variable {σ : Type} [Watcher σ]

def fetch (address : Word) : Action σ Word :=
  EStateM.adaptExcept Fault.memory (onBus (Bus.read address.toNat))

/-- Reads the word after those of the current instruction that have been read. -/
def nextWord : Action σ Word := fun m =>
  let address := m.registers.pc + m.span
  fetch address { m with span := m.span + 1 }

def register (r : Register) : Action σ Word := fun m =>
  .ok (m.registers.get r) m

/-- Resolves an operand whose place is a word of memory. -/
def resolveAt (operand : Operand) (address : Word) : Action σ Resolved := do
  let value ← fetch address
  return ⟨operand, .memory address, value⟩

def resolve (operand : Operand) : Action σ Resolved := do
  match operand with
  | .register r => return ⟨operand, .register r, ← register r⟩
  | .indirect r => resolveAt operand (← register r)
  | .indexed r =>
    let base ← nextWord
    resolveAt operand (base + (← register r))
  | .pop | .peek => resolveAt operand (← register .sp)
  | .push => resolveAt operand ((← register .sp) - 1)
  | .absolute => resolveAt operand (← nextWord)
  | .immediate => return ⟨operand, .nowhere, ← nextWord⟩
  | .literal value => return ⟨operand, .nowhere, value.toUInt16⟩

/-- Stores a word where a resolved operand points. -/
def store (target : Resolved) (value : Word) : Action σ Unit :=
  match target.place with
  | .register r => modify (onRegisters (·.set r value))
  | .memory address =>
    EStateM.adaptExcept Fault.memory (onBus (Bus.write address.toNat value.toNat))
  | .nowhere => throw (.invalidTarget target.operand.code)

/-- Moves the stack pointer as a stack operand asks. -/
def moveStack (operand : Operand) : Action σ Unit :=
  match operand with
  | .pop => modify (onRegisters (·.pop.2))
  | .push => modify (onRegisters (·.push.2))
  | _ => pure ()

end Machine

end WordMachine
