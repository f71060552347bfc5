/-!
# Lines of text

A line ends at a line feed, and a carriage return just before the line feed belongs to the line's
end.  What follows the last line feed is a line of its own if there is anything.  Blank are the 25
characters with the Unicode property White_Space; `Blank.trim` takes them off both ends of a text.
In columns, short texts are filled up with spaces, and long texts are left as they are.
-/

namespace WordMachine

namespace Lines

/-- The text before the first line feed, and the pieces between and after the line feeds. -/
def pieces (cs : List Char) : List Char × List (List Char) :=
  cs.foldr
    (fun c (line, rest) => if c = '\n' then ([], line :: rest) else (c :: line, rest))
    ([], [])

/-- A line without the carriage return at its end. -/
def dropReturn (line : List Char) : List Char :=
  if line.getLast? = some '\r' then line.dropLast else line

/-- The lines of a text whose first piece is `line`. -/
def close (line : List Char) : List (List Char) → List (List Char)
  | [] => if line.isEmpty then [] else [line]
  | next :: rest => dropReturn line :: close next rest

/-- The lines of a text, without their ends. -/
def split (cs : List Char) : List (List Char) :=
  let (line, rest) := pieces cs
  close line rest

end Lines

namespace Blank

/-- The first and the last code point of each range of blank characters. -/
def ranges : List (Nat × Nat) :=
  [(0x09, 0x0d), (0x20, 0x20), (0x85, 0x85), (0xa0, 0xa0), (0x1680, 0x1680), (0x2000, 0x200a),
  (0x2028, 0x2029), (0x202f, 0x202f), (0x205f, 0x205f), (0x3000, 0x3000)]

def contains (c : Char) : Bool :=
  ranges.any fun range => decide (range.1 ≤ c.toNat) && decide (c.toNat ≤ range.2)

/-- The text without the blanks at its ends. -/
def trim (cs : List Char) : List Char :=
  (((cs.dropWhile contains).reverse).dropWhile contains).reverse

end Blank

namespace Align

/-- Fills a text up with spaces on the right. -/
def left (width : Nat) (s : String) : String :=
  s ++ String.ofList (List.replicate (width - s.length) ' ')

/-- Fills a text up with spaces on the left. -/
def right (width : Nat) (s : String) : String :=
  String.ofList (List.replicate (width - s.length) ' ') ++ s

end Align

end WordMachine
