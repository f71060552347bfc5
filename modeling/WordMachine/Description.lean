import WordMachine.Machine.Basic

/-!
# Descriptions

Values written out for diagnosis, each with its kind and its parts: `Literal(5)`, or a record with
named fields between braces.
-/

namespace WordMachine

namespace Description

/-- A kind with one part. -/
def call (kind part : String) : String :=
  kind ++ "(" ++ part ++ ")"

/-- A kind with named parts. -/
def record (kind : String) (parts : List (String × String)) : String :=
  let texts := parts.map fun part => part.1 ++ ": " ++ part.2
  kind ++ " \x7b " ++ ", ".intercalate texts ++ " \x7d"

def sequence (parts : List String) : String :=
  "[" ++ ", ".intercalate parts ++ "]"

/-- The digits of a fraction of 1000 without the zeros at its end. -/
def thousandths (n : Nat) : String :=
  let digits := [n / 100, n / 10 % 10, n % 10]
  String.ofList (((digits.reverse.dropWhile (· == 0)).reverse).map Nat.digitChar)

/-- A time given in milliseconds, in the largest unit that leaves a whole part. -/
def duration (milliseconds : Nat) : String :=
  if milliseconds = 0 then "0ns"
  else if milliseconds < 1000 then toString milliseconds ++ "ms"
  else if milliseconds % 1000 = 0 then toString (milliseconds / 1000) ++ "s"
  else toString (milliseconds / 1000) ++ "." ++ thousandths (milliseconds % 1000) ++ "s"

end Description

def Register.kind : Register → String
  | sp => "Sp"
  | pc => "Pc"
  | r => r.name

def BasicOp.kind : BasicOp → String
  | set => "Set"
  | add => "Add"
  | sub => "Sub"
  | mul => "Mul"
  | div => "Div"
  | mod => "Mod"
  | shl => "Shl"
  | shr => "Shr"
  | and => "And"
  | bor => "Bor"
  | xor => "Xor"
  | ife => "Ife"
  | ifn => "Ifn"
  | ifg => "Ifg"
  | ifb => "Ifb"

def SpecialOp.kind : SpecialOp → String
  | jsr => "Jsr"
  | reserved _ => "Reserved"

def Operand.kind : Operand → String
  | register _ => "Register"
  | indirect _ => "Indirect"
  | indexed _ => "IndexedIndirect"
  | pop => "Pop"
  | peek => "Peek"
  | push => "Push"
  | absolute => "NextWordIndirect"
  | immediate => "NextWordLiteral"
  | literal _ => "Literal"

def Instruction.kind : Instruction → String
  | basic .. => "Basic"
  | special .. => "NonBasic"

def Operand.describe (operand : Operand) : String :=
  match operand with
  | register r | indirect r | indexed r => Description.call operand.kind r.kind
  | literal value => Description.call operand.kind (toString value.toNat)
  | _ => operand.kind

def SpecialOp.describe (op : SpecialOp) : String :=
  match op with
  | jsr => op.kind
  | reserved code => Description.call op.kind (toString code.toNat)

def Instruction.describe (instruction : Instruction) : String :=
  match instruction with
  | basic op a b =>
    Description.record instruction.kind [("op", op.kind), ("a", a.describe), ("b", b.describe)]
  | special op a =>
    Description.record instruction.kind [("op", op.describe), ("a", a.describe)]

def Registers.describe (r : Registers) : String :=
  Description.record "Registers"
    [("general", Description.sequence (r.generalWords.map toString)),
      ("sp", toString r.sp), ("pc", toString r.pc), ("o", toString r.o)]

/-- A memory written out, by its size and the number of words in use. -/
def Memory.describe (m : Memory) : String :=
  Description.record "Memory"
    [("non_zero_words", toString m.countNonZero), ("capacity", toString m.capacity)]

def Machine.describe {σ : Type} (m : Machine σ) : String :=
  Description.record "Cpu"
    [("steps", toString m.steps), ("skip", toString m.skip), ("regs", m.registers.describe),
      ("mem", m.memory.describe)]

end WordMachine
