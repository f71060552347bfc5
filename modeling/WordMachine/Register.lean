import WordMachine.Word

/-!
# Registers

Eight general registers, a stack pointer, a program counter and an overflow register.  Each register
has a code that names it directly in an operand.  The register file is a plain record; `get_set`
says what a write does to every read.  It is reported as JSON text, on one line or laid out over
many.
-/

namespace WordMachine

inductive Register
  | a | b | c | x | y | z | i | j | sp | pc | o
  deriving DecidableEq

namespace Register

/-- The eight general registers in the order of their codes. -/
def general : List Register :=
  [a, b, c, x, y, z, i, j]

/-- Every register, the general ones first. -/
def all : List Register :=
  general ++ [sp, pc, o]

/-- The general register with a given index; only the three lowest bits of the index count. -/
def ofIndex (index : Nat) : Register :=
  match index % 8 with
  | 0 => a
  | 1 => b
  | 2 => c
  | 3 => x
  | 4 => y
  | 5 => z
  | 6 => i
  | _ => j

/-- The operand code that names the register. -/
def code : Register → Nat
  | a => 0x00
  | b => 0x01
  | c => 0x02
  | x => 0x03
  | y => 0x04
  | z => 0x05
  | i => 0x06
  | j => 0x07
  | sp => 0x1b
  | pc => 0x1c
  | o => 0x1d

def name : Register → String
  | a => "A"
  | b => "B"
  | c => "C"
  | x => "X"
  | y => "Y"
  | z => "Z"
  | i => "I"
  | j => "J"
  | sp => "SP"
  | pc => "PC"
  | o => "O"

end Register

/-- The register file.  All registers start at zero, so the first push lands on the last word of a
full address space. -/
structure Registers where
  a : Word := 0
  b : Word := 0
  c : Word := 0
  x : Word := 0
  y : Word := 0
  z : Word := 0
  i : Word := 0
  j : Word := 0
  /-- Stack pointer; the stack grows downward. -/
  sp : Word := 0
  pc : Word := 0
  /-- Overflow of the last arithmetic instruction that had one. -/
  o : Word := 0
  deriving DecidableEq

namespace Registers

def get (r : Registers) : Register → Word
  | .a => r.a
  | .b => r.b
  | .c => r.c
  | .x => r.x
  | .y => r.y
  | .z => r.z
  | .i => r.i
  | .j => r.j
  | .sp => r.sp
  | .pc => r.pc
  | .o => r.o

def set (r : Registers) (register : Register) (value : Word) : Registers :=
  match register with
  | .a => { r with a := value }
  | .b => { r with b := value }
  | .c => { r with c := value }
  | .x => { r with x := value }
  | .y => { r with y := value }
  | .z => { r with z := value }
  | .i => { r with i := value }
  | .j => { r with j := value }
  | .sp => { r with sp := value }
  | .pc => { r with pc := value }
  | .o => { r with o := value }

/-- The general registers as a list, in the order of their codes. -/
def generalWords (r : Registers) : List Word :=
  Register.general.map r.get

/-- Makes room for one word on the stack and gives its address. -/
def push (r : Registers) : Word × Registers :=
  (r.sp - 1, { r with sp := r.sp - 1 })

/-- Drops the top of the stack and gives the address it had. -/
def pop (r : Registers) : Word × Registers :=
  (r.sp, { r with sp := r.sp + 1 })

/-- Moves the program counter forward. -/
def advance (r : Registers) (words : Word) : Registers :=
  { r with pc := r.pc + words }

/-- The register file as JSON on one line. -/
def compactJson (r : Registers) : String :=
  let general := ",".intercalate (r.generalWords.map toString)
  "\x7b\"general\":[" ++ general ++ "],\"sp\":" ++ toString r.sp ++ ",\"pc\":" ++ toString r.pc ++
    ",\"o\":" ++ toString r.o ++ "\x7d"

/-- The register file as JSON with one value on each line. -/
def prettyJson (r : Registers) : String :=
  let general := ",\n".intercalate (r.generalWords.map fun word => "    " ++ toString word)
  "\x7b\n  \"general\": [\n" ++ general ++ "\n  ],\n  \"sp\": " ++ toString r.sp ++
    ",\n  \"pc\": " ++ toString r.pc ++ ",\n  \"o\": " ++ toString r.o ++ "\n\x7d"

theorem get_set (r : Registers) (s t : Register) (value : Word) :
    (r.set s value).get t = if t = s then value else r.get t := by
  cases s <;> cases t <;> rfl

@[simp]
theorem get_set_self (r : Registers) (s : Register) (value : Word) :
    (r.set s value).get s = value := by
  simp [get_set]

theorem get_set_of_ne
    (r : Registers) {s t : Register} (value : Word) (hne : t ≠ s) :
    (r.set s value).get t = r.get t := by
  simp [get_set, hne]

end Registers

end WordMachine
