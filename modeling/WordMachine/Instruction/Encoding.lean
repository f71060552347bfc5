import WordMachine.Instruction.Basic

/-!
# Instruction words

A word holds a four-bit opcode, then a six-bit code for the target and a six-bit code for the
source, the opcode in the lowest bits.  Opcode zero marks a special instruction, whose six-bit
opcode takes the place of the target.  Every word decodes.
-/

namespace WordMachine

namespace BasicOp

/-- The four-bit code; none is zero. -/
def code : BasicOp → Nat
  | set => 0x1
  | add => 0x2
  | sub => 0x3
  | mul => 0x4
  | div => 0x5
  | mod => 0x6
  | shl => 0x7
  | shr => 0x8
  | and => 0x9
  | bor => 0xa
  | xor => 0xb
  | ife => 0xc
  | ifn => 0xd
  | ifg => 0xe
  | ifb => 0xf

/-- The opcode with a given code, of which only the four lowest bits count. -/
def ofCode? (code : Nat) : Option BasicOp :=
  match code % 16 with
  | 0x1 => some set
  | 0x2 => some add
  | 0x3 => some sub
  | 0x4 => some mul
  | 0x5 => some div
  | 0x6 => some mod
  | 0x7 => some shl
  | 0x8 => some shr
  | 0x9 => some and
  | 0xa => some bor
  | 0xb => some xor
  | 0xc => some ife
  | 0xd => some ifn
  | 0xe => some ifg
  | 0xf => some ifb
  | _ => none

end BasicOp

namespace SpecialOp

def code : SpecialOp → Nat
  | jsr => 0x01
  | reserved code => code.toNat % 64

/-- The opcode with a given code, of which only the six lowest bits count. -/
def ofCode (code : Nat) : SpecialOp :=
  if code % 64 = 0x01 then jsr else reserved (UInt8.ofNat (code % 64))

end SpecialOp

namespace Operand

def code : Operand → Nat
  | register r => r.code
  | indirect r => 0x08 + r.code % 8
  | indexed r => 0x10 + r.code % 8
  | pop => 0x18
  | peek => 0x19
  | push => 0x1a
  | absolute => 0x1e
  | immediate => 0x1f
  | literal value => 0x20 + value.toNat % 32

/-- The operand with a given six-bit code. -/
def ofField (field : Nat) : Operand :=
  if field < 0x08 then register (.ofIndex field)
  else if field < 0x10 then indirect (.ofIndex field)
  else if field < 0x18 then indexed (.ofIndex field)
  else if field = 0x18 then pop
  else if field = 0x19 then peek
  else if field = 0x1a then push
  else if field = 0x1b then register .sp
  else if field = 0x1c then register .pc
  else if field = 0x1d then register .o
  else if field = 0x1e then absolute
  else if field = 0x1f then immediate
  else literal (UInt8.ofNat (field - 0x20))

/-- The operand with a given code, of which only the six lowest bits count. -/
def ofCode (code : Nat) : Operand :=
  ofField (code % 64)

end Operand

namespace Instruction

/-- Decodes the first word of an instruction. -/
def decode (word : Word) : Instruction :=
  let bits := word.toNat
  match BasicOp.ofCode? bits with
  | some op => .basic op (Operand.ofCode (bits / 16)) (Operand.ofCode (bits / 1024))
  | none => .special (SpecialOp.ofCode (bits / 16)) (Operand.ofCode (bits / 1024))

def encode : Instruction → Word
  | basic op a b => UInt16.ofNat (op.code + a.code * 16 + b.code * 1024)
  | special op a => UInt16.ofNat (op.code * 16 + a.code * 1024)

end Instruction

end WordMachine
