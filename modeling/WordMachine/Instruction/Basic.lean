import WordMachine.Register

/-!
# Instructions

An instruction is basic, with an opcode and two operands, or special, with an opcode and one
operand.  An operand names a place by an addressing form.  Three of the forms are followed by a
word of their own in memory, so an instruction is one to three words long.
-/

namespace WordMachine

/-- The opcodes with two operands: a target and a source. -/
inductive BasicOp
  | set
  /-- Adds the source; a carry goes to the overflow register. -/
  | add
  /-- Subtracts the source; a borrow goes to the overflow register. -/
  | sub
  /-- Multiplies by the source; the high word goes to the overflow register. -/
  | mul
  /-- Divides by the source; the fraction goes to the overflow register. -/
  | div
  | mod
  /-- Shifts left; the bits shifted out go to the overflow register. -/
  | shl
  /-- Shifts right; the bits shifted out go to the overflow register. -/
  | shr
  | and
  | bor
  | xor
  /-- Goes on with the next instruction only if the operands are equal. -/
  | ife
  /-- Goes on with the next instruction only if the operands differ. -/
  | ifn
  /-- Goes on with the next instruction only if the target is greater. -/
  | ifg
  /-- Goes on with the next instruction only if the operands share a bit. -/
  | ifb
  deriving DecidableEq

/-- The opcodes with one operand. -/
inductive SpecialOp
  /-- Pushes the address of the next instruction and jumps to the operand. -/
  | jsr
  /-- Does nothing.  Only the six lowest bits of the code are written into a word. -/
  | reserved (code : UInt8)
  deriving DecidableEq

/-- The addressing forms. -/
inductive Operand
  | register (r : Register)
  /-- The word in memory that the register points to. -/
  | indirect (r : Register)
  /-- The word in memory at the next word plus the register. -/
  | indexed (r : Register)
  /-- The top of the stack, which is taken off. -/
  | pop
  /-- The top of the stack. -/
  | peek
  /-- A new top of the stack. -/
  | push
  /-- The word in memory at the next word. -/
  | absolute
  /-- The next word as a literal. -/
  | immediate
  /-- A small literal.  Only its five lowest bits are written into a word. -/
  | literal (value : UInt8)
  deriving DecidableEq

/-- A decoded instruction word. -/
inductive Instruction
  /-- An opcode with a target `a` and a source `b`. -/
  | basic (op : BasicOp) (a b : Operand)
  /-- An opcode with the operand `a`. -/
  | special (op : SpecialOp) (a : Operand)
  deriving DecidableEq

namespace BasicOp

/-- Every basic opcode in the order of their codes. -/
def all : List BasicOp :=
  [set, add, sub, mul, div, mod, shl, shr, and, bor, xor, ife, ifn, ifg, ifb]

def writesTarget : BasicOp → Bool
  | ife | ifn | ifg | ifb => false
  | _ => true

def mnemonic : BasicOp → String
  | set => "SET"
  | add => "ADD"
  | sub => "SUB"
  | mul => "MUL"
  | div => "DIV"
  | mod => "MOD"
  | shl => "SHL"
  | shr => "SHR"
  | and => "AND"
  | bor => "BOR"
  | xor => "XOR"
  | ife => "IFE"
  | ifn => "IFN"
  | ifg => "IFG"
  | ifb => "IFB"

end BasicOp

/-- Whether the operand is followed by a word of its own. -/
def Operand.usesNextWord : Operand → Bool
  | indexed _ | absolute | immediate => true
  | _ => false

namespace Instruction

/-- The operands in the order in which they are resolved and in which their own words follow. -/
def operands : Instruction → List Operand
  | basic _ a b => [a, b]
  | special _ a => [a]

/-- The length in words, the operands' own words included. -/
def length (instruction : Instruction) : Nat :=
  1 + instruction.operands.countP Operand.usesNextWord

/-- Whether the instruction, when it is executed, sets the program counter itself. -/
def jumps : Instruction → Bool
  | basic op a _ => op.writesTarget && a == .register .pc
  | special op _ => op == .jsr

end Instruction

end WordMachine
