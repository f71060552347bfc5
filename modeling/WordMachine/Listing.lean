import WordMachine.Disassembly
import WordMachine.Text.Lines
import WordMachine.Text.Quoted

/-!
# Program listings

A listing is text with one word of a program on each line.  What follows a word on its line is a
comment.  A line is ignored if it is blank or starts with one of the comment marks.  Otherwise its
first token must be a hexadecimal word, with or without a marker in front.  The first line that
fails decides the error, and ignored lines count in its number.

When a program is printed, every word gets a line of its own, and the first word of each instruction
carries the instruction's text as a comment.
-/

namespace WordMachine

/-- Why a token is no word. -/
inductive TokenFault
  /-- There is no digit at all. -/
  | empty
  | invalidDigit
  | tooLarge
  deriving DecidableEq

def TokenFault.message : TokenFault → String
  | empty => "cannot parse integer from empty string"
  | invalidDigit => "invalid digit found in string"
  | tooLarge => "number too large to fit in target type"

/-- Why a listing cannot be read. -/
inductive ListingFault
  /-- The text could not be had, for the given reason. -/
  | unavailable (reason : String)
  /-- The token on a line is no word. -/
  | invalidWord (line : Nat) (token : List Char) (fault : TokenFault)
  deriving DecidableEq

def ListingFault.message : ListingFault → String
  | unavailable reason => "I/O error: " ++ reason
  | invalidWord line token fault =>
    "parse error on line " ++ toString line ++ ": invalid word " ++ Quoted.text token ++ ": " ++
      fault.message

/-- One word of a listing with the line it was read from. -/
structure ListingEntry where
  word : Word
  /-- The line, without the blanks at its ends. -/
  source : List Char
  deriving DecidableEq

/-- The words of a listing, in order. -/
abbrev Listing := List ListingEntry

namespace Listing

/-- The program that the listing holds. -/
def words (listing : Listing) : List Word :=
  listing.map ListingEntry.word

/-- The lines that the words were read from. -/
def sourceLines (listing : Listing) : List String :=
  listing.map fun entry => String.ofList entry.source

/-- The lines of one instruction. -/
def renderLine (line : Disassembly.Line) : String :=
  Hex.marked 4 line.word.toNat ++ "   ; " ++ line.text ++ "\n" ++
    String.join (line.following.map fun word => Hex.marked 4 word.toNat ++ "\n")

/-- The annotated listing of a program. -/
def render (words : List Word) : String :=
  String.join ((Disassembly.sweep 0 words).map renderLine)

/-- Reads digits from left to right behind a value read so far.  A character that is no digit is
found before the value grows too large. -/
def readDigits (value : Nat) : List Char → Except TokenFault Word
  | [] => .ok (UInt16.ofNat value)
  | c :: rest =>
    match Hex.value? c with
    | none => .error .invalidDigit
    | some d =>
      if addressSpace ≤ value * 16 then .error .tooLarge
      else readDigits (value * 16 + d) rest

/-- Reads a number with an optional plus sign, which needs a digit behind it. -/
def readNumber : List Char → Except TokenFault Word
  | [] => .error .empty
  | ['+'] => .error .invalidDigit
  | '+' :: digits => readDigits 0 digits
  | digits => readDigits 0 digits

/-- A token without the marker of hexadecimal numbers. -/
def dropMarker : List Char → List Char
  | '0' :: 'x' :: digits => digits
  | '0' :: 'X' :: digits => digits
  | token => token

/-- Whether a character ends a token. -/
def endsToken (c : Char) : Bool :=
  Blank.contains c || c == ';' || c == ','

def token (line : List Char) : List Char :=
  line.takeWhile (!endsToken ·)

/-- Whether a line without blanks at its ends holds no word. -/
def isIgnored : List Char → Bool
  | [] => true
  | ';' :: _ => true
  | '#' :: _ => true
  | '/' :: '/' :: _ => true
  | _ => false

/-- Reads a line with its number.  An ignored line gives no entry. -/
def readLine (line : List Char × Nat) : Except ListingFault (Option ListingEntry) :=
  let source := Blank.trim line.1
  if isIgnored source then
    .ok none
  else
    match readNumber (dropMarker (token source)) with
    | .ok word => .ok (some ⟨word, source⟩)
    | .error fault => .error (.invalidWord line.2 (token source) fault)

def ofChars (cs : List Char) : Except ListingFault Listing := do
  let entries ← ((Lines.split cs).zipIdx 1).mapM readLine
  return entries.filterMap id

def ofString (text : String) : Except ListingFault Listing :=
  ofChars text.toList

end Listing

end WordMachine
