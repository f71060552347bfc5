import WordMachine.Machine.Arithmetic
import WordMachine.Machine.Operand

/-!
# Steps and batches

A step fetches a word, resolves its operands, and executes the instruction unless a failed test
before it asks to skip it.  A step that fails leaves the program counter on the failing
instruction and does not count.  A skipped instruction is read in full, so that the program
counter passes over all of it, but moves no stack, stores nothing and tests nothing.
-/

namespace WordMachine.Machine

variable {σ : Type} [Watcher σ]

/-- Writes the overflow register, if there is a word for it. -/
def overflow : Option Word → Action σ Unit
  | some word => modify (onRegisters (·.set .o word))
  | none => pure ()

/-- Answers whether the current instruction is to be skipped, and forgets it. -/
def takeSkip : Action σ Bool := fun m =>
  .ok m.skip { m with skip := false }

def executeBasic (op : BasicOp) (target source : Resolved) : Action σ Unit := do
  match op.apply target.value source.value with
  | .test passed =>
    moveStack target.operand
    moveStack source.operand
    modify fun m => { m with skip := !passed }
  | .store result before after =>
    if target.place = .nowhere then
      throw (.invalidTarget target.operand.code)
    moveStack target.operand
    moveStack source.operand
    overflow before
    store target result
    overflow after

/-- Pushes the address of the next instruction and jumps. -/
def call (destination : Word) : Action σ Unit := do
  let back := (← get).registers.pc + (← get).span
  modify (onRegisters (·.push.2))
  let top ← register .sp
  EStateM.adaptExcept Fault.memory (onBus (Bus.write top.toNat back.toNat))
  modify (onRegisters (·.set .pc destination))

def executeSpecial (op : SpecialOp) (operand : Resolved) : Action σ Unit := do
  moveStack operand.operand
  match op with
  | .jsr => call operand.value
  | .reserved _ => pure ()

/-- Resolves the operands of an instruction and executes it.  Answers whether it was skipped. -/
def perform (instruction : Instruction) : Action σ Bool := do
  match instruction with
  | .basic op a b =>
    let target ← resolve a
    let source ← resolve b
    if ← takeSkip then
      return true
    executeBasic op target source
    return false
  | .special op a =>
    let operand ← resolve a
    if ← takeSkip then
      return true
    executeSpecial op operand
    return false

/-- Moves on to the next instruction and counts and tells the one completed. -/
def retire (pc word : Word) (instruction : Instruction) (skipped : Bool) : Machine σ → Machine σ
  | ⟨registers, bus, steps, skip, span⟩ =>
    let registers :=
      if !skipped && instruction.jumps then registers else registers.advance span
    let report := ⟨pc, word, span, skipped, instruction, steps + 1, registers⟩
    ⟨registers, bus.announce (.stepped report), steps + 1, skip, span⟩

/-- Executes one instruction and gives it back. -/
def step : Action σ Instruction := do
  modify fun m => { m with span := 1 }
  let pc ← register .pc
  let word ← fetch pc
  let instruction := Instruction.decode word
  let skipped ← perform instruction
  modify (retire pc word instruction skipped)
  return instruction

/-- Executes `count` instructions after `done` others of the same batch, up to the first that
fails. -/
def runAfter (done : Nat) : Nat → Action σ Unit
  | 0 => pure ()
  | count + 1 => fun m =>
    match step m with
    | .ok _ m => runAfter (done + 1) count m
    | .error fault m => .error fault (m.announce (.batchAborted done m.pc fault))

/-- Executes a batch of instructions and gives back how many there were.  No instruction halts the
machine, so only a fault ends a batch early. -/
def run (count : Nat) : Action σ Nat := do
  runAfter 0 count
  return count

end WordMachine.Machine
