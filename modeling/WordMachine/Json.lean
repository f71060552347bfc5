import WordMachine.Text.Hex

/-!
# Reading JSON

The values that settings are read from.  Numbers are told apart only as far as settings need it: a
plain natural number, or anything else.  The grammar is the strict one: no comments, no trailing
commas, no leading zeros, no control characters inside strings, and nothing but blanks around the
value.  Arrays and objects nest to any depth.  Each reader takes a text and gives what it has read
with the rest of the text.
-/

namespace WordMachine

/-- A JSON value. -/
inductive Json
  | null
  | bool (value : Bool)
  /-- A number without sign, fraction and exponent. -/
  | natural (value : Nat)
  /-- Any other number. -/
  | number
  /-- A text, or nothing if its escapes name half a surrogate pair. -/
  | string (text : Option String)
  | array (elements : List Json)
  /-- Names with values, in the order in which they were written. -/
  | object (members : List (Option String × Json))

namespace Json

/-- Whether a character may stand between tokens. -/
def isSpace (c : Char) : Bool :=
  c == ' ' || c == '\t' || c == '\n' || c == '\r'

/-- The text without the blanks in front. -/
def skipSpace (cs : List Char) : List Char :=
  cs.dropWhile isSpace

/-- Reads a keyword letter by letter. -/
def readWord (value : Json) : List Char → List Char → Option (Json × List Char)
  | [], cs => some (value, cs)
  | w :: word, c :: cs => if w = c then readWord value word cs else none
  | _ :: _, [] => none

/-- Reads digits, of which there must be one. -/
def readDigits (cs : List Char) : Option (List Char × List Char) :=
  match cs.takeWhile Char.isDigit with
  | [] => none
  | digits => some (digits, cs.dropWhile Char.isDigit)

/-- Reads a whole part: a single zero, or digits that do not start with zero. -/
def readWhole : List Char → Option (List Char × List Char)
  | '0' :: rest => if (rest.head?.map Char.isDigit).getD false then none else some (['0'], rest)
  | cs => readDigits cs

/-- Reads a fraction, if there is one.  Answers whether there is. -/
def readFraction : List Char → Option (Bool × List Char)
  | '.' :: rest => (readDigits rest).map fun (_, rest) => (true, rest)
  | cs => some (false, cs)

def dropSign : List Char → List Char
  | '+' :: rest => rest
  | '-' :: rest => rest
  | cs => cs

/-- Reads an exponent, if there is one.  Answers whether there is. -/
def readExponent : List Char → Option (Bool × List Char)
  | c :: rest =>
    if c = 'e' ∨ c = 'E' then (readDigits (dropSign rest)).map fun (_, rest) => (true, rest)
    else some (false, c :: rest)
  | [] => some (false, [])

def digitsValue (digits : List Char) : Nat :=
  digits.foldl (fun value c => value * 10 + (c.toNat - '0'.toNat)) 0

def readNumber (cs : List Char) : Option (Json × List Char) := do
  let (negative, cs) :=
    match cs with
    | '-' :: rest => (true, rest)
    | cs => (false, cs)
  let (whole, cs) ← readWhole cs
  let (fraction, cs) ← readFraction cs
  let (exponent, cs) ← readExponent cs
  if negative || fraction || exponent then
    return (.number, cs)
  return (.natural (digitsValue whole), cs)

/-- The character that a backslash and a letter stand for. -/
def unescape? : Char → Option Char
  | '"' => some '"'
  | '\\' => some '\\'
  | '/' => some '/'
  | 'b' => some '\x08'
  | 'f' => some '\x0c'
  | 'n' => some '\n'
  | 'r' => some '\r'
  | 't' => some '\t'
  | _ => none

/-- The value of four hexadecimal digits. -/
def hexUnit? (a b c d : Char) : Option Nat := do
  return (((← Hex.value? a) * 16 + (← Hex.value? b)) * 16 + (← Hex.value? c)) * 16 +
    (← Hex.value? d)

/-- Reads a string behind its opening quote, as code points and, where it is escaped by number, as
sixteen-bit units. -/
def readUnits : List Char → Option (List Nat × List Char)
  | [] => none
  | '"' :: rest => some ([], rest)
  | '\\' :: 'u' :: a :: b :: c :: d :: rest => do
    let unit ← hexUnit? a b c d
    let (units, rest) ← readUnits rest
    return (unit :: units, rest)
  | '\\' :: c :: rest => do
    let c ← unescape? c
    let (units, rest) ← readUnits rest
    return (c.toNat :: units, rest)
  | c :: rest => do
    if c.toNat < 0x20 ∨ c = '\\' then
      none
    let (units, rest) ← readUnits rest
    return (c.toNat :: units, rest)

/-- Joins the halves of surrogate pairs.  A half alone makes no text. -/
def joinSurrogates : List Nat → Option (List Char)
  | [] => some []
  | unit :: rest =>
    if 0xd800 ≤ unit ∧ unit < 0xdc00 then
      match rest with
      | next :: rest =>
        if 0xdc00 ≤ next ∧ next < 0xe000 then
          (joinSurrogates rest).map
            (Char.ofNat (0x10000 + (unit - 0xd800) * 0x400 + (next - 0xdc00)) :: ·)
        else none
      | [] => none
    else if 0xdc00 ≤ unit ∧ unit < 0xe000 then none
    else (joinSurrogates rest).map (Char.ofNat unit :: ·)

def readString (cs : List Char) : Option (Option String × List Char) := do
  let (units, rest) ← readUnits cs
  return ((joinSurrogates units).map String.ofList, rest)

mutual

def readValue : Nat → List Char → Option (Json × List Char)
  | 0, _ => none
  | fuel + 1, cs =>
    match skipSpace cs with
    | 'n' :: rest => readWord .null ['u', 'l', 'l'] rest
    | 't' :: rest => readWord (.bool true) ['r', 'u', 'e'] rest
    | 'f' :: rest => readWord (.bool false) ['a', 'l', 's', 'e'] rest
    | '"' :: rest => (readString rest).map fun (text, rest) => (.string text, rest)
    | '[' :: rest =>
      match skipSpace rest with
      | ']' :: rest => some (.array [], rest)
      | rest => (readElements fuel rest).map fun (elements, rest) => (.array elements, rest)
    | '\x7b' :: rest =>
      match skipSpace rest with
      | '\x7d' :: rest => some (.object [], rest)
      | rest => (readMembers fuel rest).map fun (members, rest) => (.object members, rest)
    | cs => readNumber cs

/-- Reads the elements of an array, of which there is at least one, and the closing bracket. -/
def readElements : Nat → List Char → Option (List Json × List Char)
  | 0, _ => none
  | fuel + 1, cs => do
    let (element, cs) ← readValue fuel cs
    match skipSpace cs with
    | ',' :: rest =>
      let (elements, rest) ← readElements fuel rest
      return (element :: elements, rest)
    | ']' :: rest => return ([element], rest)
    | _ => none

/-- Reads the members of an object, of which there is at least one, and the closing brace. -/
def readMembers : Nat → List Char → Option (List (Option String × Json) × List Char)
  | 0, _ => none
  | fuel + 1, cs =>
    match skipSpace cs with
    | '"' :: rest => do
      let (name, rest) ← readString rest
      match skipSpace rest with
      | ':' :: rest =>
        let (value, rest) ← readValue fuel rest
        match skipSpace rest with
        | ',' :: rest =>
          let (members, rest) ← readMembers fuel rest
          return ((name, value) :: members, rest)
        | '\x7d' :: rest => return ([(name, value)], rest)
        | _ => none
      | _ => none
    | _ => none

end

/-- Reads a text that holds one value.  Every second call of the readers consumes a character, so
twice the length of the text is fuel enough. -/
def ofChars? (cs : List Char) : Option Json := do
  let (value, rest) ← readValue (2 * cs.length + 2) cs
  if skipSpace rest = [] then some value else none

end Json

end WordMachine
