import WordMachine.Text.GraphemeExtend
import WordMachine.Text.Hex
import WordMachine.Text.Unprintable

/-!
# Quoted text

A text between double quotes in which everything that could be mistaken or overlooked is escaped:
the quote and the backslash, the common control characters by a letter, and all other characters
without a form of their own by their code point.
-/

namespace WordMachine.Quoted

/-- A character by its code point. -/
def byCodePoint (c : Char) : String :=
  "\\u\x7b" ++ Hex.text 1 c.toNat ++ "\x7d"

/-- A character as it stands between the quotes. -/
def escape (c : Char) : String :=
  match c with
  | '\x00' => "\\0"
  | '\t' => "\\t"
  | '\n' => "\\n"
  | '\r' => "\\r"
  | '"' => "\\\""
  | '\\' => "\\\\"
  | c =>
    if GraphemeExtend.contains c || Unprintable.contains c then byCodePoint c else c.toString

/-- A text between quotes. -/
def text (cs : List Char) : String :=
  "\"" ++ String.join (cs.map escape) ++ "\""

end WordMachine.Quoted
