import WordMachine.Instruction.Basic

/-!
# What the basic opcodes compute

Each opcode either stores a result or tests its operands.  Operands are widened to 32 bits for it,
and to 64 bits for a shift, and the result is cut down to a word.  The overflow register can be set
on both sides of the store: a carry or borrow is raised before it, while the second word of a
product, quotient or shift is written after it, and so outlives a store to the overflow register
itself.
-/

namespace WordMachine

/-- What an opcode makes of the values of its operands. -/
inductive Outcome
  /-- A result to be stored in the target, with the overflow words to be written before and after
  the store. -/
  | store (result : Word) (before after : Option Word)
  | test (passed : Bool)
  deriving DecidableEq

/-- Shifts left.  A shift by 64 or more leaves nothing. -/
def shiftLeft (value : UInt64) (amount : UInt32) : UInt64 :=
  if amount < 64 then value <<< amount.toUInt64 else 0

/-- Shifts right.  A shift by 64 or more leaves nothing. -/
def shiftRight (value : UInt64) (amount : UInt32) : UInt64 :=
  if amount < 64 then value >>> amount.toUInt64 else 0

/-- The values of target and source under an opcode. -/
def BasicOp.apply (op : BasicOp) (target source : Word) : Outcome :=
  let a := target.toUInt32
  let b := source.toUInt32
  match op with
  | set => .store source none none
  | add => .store (a + b).toUInt16 (if 0xffff < a + b then some 1 else none) none
  | sub => .store (a - b).toUInt16 (if a < b then some 0xffff else none) none
  | mul => .store (a * b).toUInt16 none (some ((a * b) >>> 16).toUInt16)
  | div =>
    if b = 0 then .store 0 none (some 0)
    else .store (a / b).toUInt16 none (some ((a <<< 16) / b).toUInt16)
  | mod => .store (if b = 0 then 0 else a % b).toUInt16 none none
  | shl =>
    let shifted := shiftLeft a.toUInt64 b
    .store shifted.toUInt16 none (some (shifted >>> 16).toUInt16)
  | shr =>
    .store (shiftRight a.toUInt64 b).toUInt16 none
      (some (shiftRight (a.toUInt64 <<< 16) b).toUInt16)
  | and => .store (a &&& b).toUInt16 none none
  | bor => .store (a ||| b).toUInt16 none none
  | xor => .store (a ^^^ b).toUInt16 none none
  | ife => .test (a == b)
  | ifn => .test (a != b)
  | ifg => .test (b < a)
  | ifb => .test (a &&& b != 0)

end WordMachine
