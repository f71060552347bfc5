import WordMachine.Instruction.Encoding
import WordMachine.Text.Hex

/-!
# Disassembly

Words are turned back into assembly text by a sweep that starts at the first word and goes on by
the length of each instruction.  An operand's own word is taken from the words that follow; where
they have run out, a question mark stands for it.
-/

namespace WordMachine

/-- The text of a word that an operand takes from the words that follow, and what is left of
them. -/
def nextWordText : List Word → String × List Word
  | [] => ("?", [])
  | word :: rest => (Hex.marked 4 word.toNat, rest)

/-- The text of an operand, and what it leaves of the words that follow. -/
def Operand.text (following : List Word) : Operand → String × List Word
  | register r => (r.name, following)
  | indirect r => ("[" ++ r.name ++ "]", following)
  | indexed r =>
    let (base, rest) := nextWordText following
    ("[" ++ base ++ "+" ++ r.name ++ "]", rest)
  | pop => ("POP", following)
  | peek => ("PEEK", following)
  | push => ("PUSH", following)
  | absolute =>
    let (address, rest) := nextWordText following
    ("[" ++ address ++ "]", rest)
  | immediate => nextWordText following
  | literal value => (Hex.marked 2 value.toNat, following)

/-- The text of an instruction before the given words. -/
def Instruction.text (following : List Word) : Instruction → String
  | basic op a b =>
    let (target, rest) := a.text following
    let (source, _) := b.text rest
    op.mnemonic ++ " " ++ target ++ ", " ++ source
  | special .jsr a => "JSR " ++ (a.text following).1
  | special (.reserved code) a =>
    "??? " ++ Hex.marked 2 code.toNat ++ ", " ++ (a.text following).1

namespace Disassembly

/-- The text of the first instruction of some words, and its length.  Where there is no word the
text is `???`, of length one. -/
def head : List Word → String × Nat
  | [] => ("???", 1)
  | word :: following =>
    let instruction := Instruction.decode word
    (instruction.text following, instruction.length)

structure Line where
  address : Nat
  word : Word
  /-- The operands' own words, as far as there are any. -/
  following : List Word
  text : String
  deriving DecidableEq

/-- The instructions of some words, of which the first stands at `address`. -/
def sweep (address : Nat) : List Word → List Line
  | [] => []
  | word :: rest =>
    let (text, length) := head (word :: rest)
    ⟨address, word, rest.take (length - 1), text⟩ ::
      sweep (address + length) (rest.drop (length - 1))
  termination_by words => words.length
  decreasing_by simp only [List.length_drop, List.length_cons]; omega

/-- A line of the disassembly of a program. -/
def Line.render (line : Line) : String :=
  Hex.text 4 line.address ++ ": " ++ line.text ++ "\n"

def program (words : List Word) : String :=
  "; Disassembly\n; -----------\n\n" ++ String.join ((sweep 0 words).map Line.render)

end Disassembly

end WordMachine
