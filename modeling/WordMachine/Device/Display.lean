import WordMachine.Word

/-!
# The text display

Twelve rows of thirty-two cells, one word of memory for each.  The low byte of a word is the
character that its cell shows.  The display keeps a copy of its words, so that showing it needs no
memory, and remembers whether anything was drawn since it was last asked.

Cells and rows are looked up by numbers of any size, while an index has sixty-four bits.
-/

namespace WordMachine

/-- What a host makes of an index that sixty-four bits do not hold. -/
inductive Overflow
  /-- It breaks the lookup off. -/
  | fails
  /-- It starts again at zero. -/
  | wraps
  deriving DecidableEq

/-- An index that sixty-four bits do not hold. -/
structure IndexOverflow where
  index : Nat
  deriving DecidableEq

/-- A number as an index. -/
def Overflow.index (overflow : Overflow) (n : Nat) : Except IndexOverflow Nat :=
  if n < UInt64.size then
    .ok n
  else
    match overflow with
    | fails => .error ⟨n⟩
    | wraps => .ok (n % UInt64.size)

/-- What a lookup has found, where one that broke off has found nothing. -/
def IndexOverflow.found {α : Type} : Except IndexOverflow (Option α) → Option α
  | .ok result => result
  | .error _ => none

/-- The display: its cells row by row, and whether they were drawn to. -/
structure Display where
  /-- The words of the window. -/
  cells : Vector Word 384
  /-- Whether anything was drawn since the last question. -/
  dirty : Bool
  deriving DecidableEq

namespace Display

def powerOn : Display where
  cells := Vector.replicate 384 0
  dirty := false

/-- The address of the first cell. -/
def start : Nat := 0x8000

def rows : Nat := 12

def columns : Nat := 32

/-- The cell of an address, if the address is in the window. -/
def offset? (address : Word) : Option (Fin 384) :=
  if h : start ≤ address.toNat ∧ address.toNat < start + 384 then
    some ⟨address.toNat - start, by omega⟩
  else
    none

def contains (address : Word) : Bool :=
  (offset? address).isSome

def position (address : Word) : Option (Nat × Nat) :=
  (offset? address).map fun k => (k.val / columns, k.val % columns)

/-- Takes note of a store.  Addresses outside the window are ignored. -/
def onWrite (display : Display) (address value : Word) : Display :=
  match offset? address with
  | some k => { cells := display.cells.set k value, dirty := true }
  | none => display

/-- Looks up the word of a cell.  Only places on the display are computed. -/
def findCell (overflow : Overflow) (display : Display) (row column : Nat) :
    Except IndexOverflow (Option Word) :=
  if rows ≤ row ∨ columns ≤ column then
    return none
  else do
    let first ← overflow.index (row * columns)
    let place ← overflow.index (first + column)
    return display.cells[place]?

/-- The word of a cell, if the cell is on the display. -/
def cell (display : Display) (row column : Nat) : Option Word :=
  IndexOverflow.found (display.findCell .wraps row column)

/-- The character that a word shows: that of its low byte if it is printable and not blank, and a
space otherwise. -/
def glyph (word : Word) : Char :=
  let byte := word.toNat % 256
  if 0x21 ≤ byte ∧ byte ≤ 0x7e then Char.ofNat byte else ' '

/-- The text that words show. -/
def shown (words : List Word) : String :=
  String.ofList (words.map glyph)

/-- The words from one place up to another, if they are in order and on the display. -/
def slice? (display : Display) (start stop : Nat) : Option (List Word) :=
  if start ≤ stop ∧ stop ≤ 384 then
    some ((display.cells.toList.drop start).take (stop - start))
  else
    none

/-- Looks up a row as text.  The place of its first cell is computed with a check, the place behind
its last cell without one. -/
def findRow (overflow : Overflow) (display : Display) (row : Nat) :
    Except IndexOverflow (Option String) :=
  if UInt64.size ≤ row * columns then
    return none
  else do
    let stop ← overflow.index (row * columns + columns)
    return (display.slice? (row * columns) stop).map shown

/-- A row as text, if it is on the display. -/
def rowText (display : Display) (row : Nat) : Option String :=
  IndexOverflow.found (display.findRow .wraps row)

def rowTexts (display : Display) : List String :=
  (List.range rows).filterMap display.rowText

/-- The whole display as text, one line for each chunk of thirty-two cells. -/
def text (display : Display) : String :=
  "\n".intercalate <| (List.range rows).map fun row =>
    shown ((display.cells.toList.drop (row * columns)).take columns)

/-- Answers whether anything was drawn since the last question. -/
def takeDirty (display : Display) : Bool × Display :=
  (display.dirty, { display with dirty := false })

/-- Blanks the display, which counts as drawing. -/
def clear (_ : Display) : Display :=
  { powerOn with dirty := true }

end Display

end WordMachine
