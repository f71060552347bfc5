/-!
# A screen of styled characters

A picture is a list of rows, each a list of cells.  Pictures of equal height stand beside each
other, pictures of equal width on top of each other.  A box has a border with a title and shows
lines inside, cut or filled up to its width.
-/

namespace WordMachine

inductive Colour
  | standard | yellow | cyan | white | darkGray | green | red | blue | magenta
  deriving DecidableEq

/-- How a character looks. -/
structure Style where
  colour : Colour := .standard
  bold : Bool := false
  deriving DecidableEq

/-- A character with its style. -/
structure Cell where
  char : Char
  style : Style := {}
  deriving DecidableEq

/-- A text in one style. -/
structure Span where
  text : String
  style : Style := {}
  deriving DecidableEq

def Span.cells (span : Span) : List Cell :=
  span.text.toList.map (⟨·, span.style⟩)

/-- A line inside a box. -/
structure PanelLine where
  /-- The texts from left to right. -/
  spans : List Span
  /-- The style of the cells after the texts. -/
  filling : Style := {}
  deriving DecidableEq

/-- Rows of cells, from top to bottom. -/
abbrev Picture := List (List Cell)

/-- The cells of a line, exactly `width` of them. -/
def PanelLine.cells (line : PanelLine) (width : Nat) : List Cell :=
  let cells := (line.spans.flatMap Span.cells).take width
  cells ++ List.replicate (width - cells.length) ⟨' ', line.filling⟩

@[simp]
theorem PanelLine.length_cells (line : PanelLine) (width : Nat) :
    (line.cells width).length = width := by
  simp only [PanelLine.cells, List.length_append, List.length_take, List.length_replicate]
  omega

/-- A box around lines. -/
structure Panel where
  /-- The text in the upper border. -/
  title : String
  /-- The style of border and title. -/
  border : Style := {}
  lines : List PanelLine
  /-- The style of the rows below the lines. -/
  filling : Style := {}
  deriving DecidableEq

namespace Panel

/-- The row of a border between two corners, with a title behind the left one. -/
def edge (border : Style) (left right : Char) (title : String) (width : Nat) : List Cell :=
  let title := title.toList.take width
  let inner := title ++ List.replicate (width - title.length) '─'
  (left :: inner ++ [right]).map (⟨·, border⟩)

/-- The rows inside the box, exactly `height` of them. -/
def inside (panel : Panel) (width height : Nat) : Picture :=
  let lines := panel.lines.take height
  let blank : PanelLine := ⟨[], panel.filling⟩
  (lines ++ List.replicate (height - lines.length) blank).map (·.cells width)

@[simp]
theorem length_inside (panel : Panel) (width height : Nat) :
    (panel.inside width height).length = height := by
  simp only [inside, List.length_map, List.length_append, List.length_take,
    List.length_replicate]
  omega

/-- The picture of the box. -/
def draw (panel : Panel) (width height : Nat) : Picture :=
  let side : Cell := ⟨'│', panel.border⟩
  let rows := (panel.inside (width - 2) (height - 2)).map fun row => side :: row ++ [side]
  edge panel.border '┌' '┐' panel.title (width - 2) :: rows ++
    [edge panel.border '└' '┘' "" (width - 2)]

end Panel

/-- Two pictures side by side. -/
def Picture.beside (left right : Picture) : Picture :=
  List.zipWith (· ++ ·) left right

end WordMachine
