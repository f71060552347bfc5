import Mathlib.Data.List.Basic
import Mathlib.Data.List.Induction
import WordMachine.Proofs.Mirrors

/-!
# What the display shows

A cell is looked up by row and column, a row by its slice of the cells, and the whole display chunk
by chunk, and each finds the word that was last given to the cell.  The lookups bound their indices
in different ways.  That of a row multiplies with care but adds without, and there is one row, far
below the display, where the sum is a number that sixty-four bits do not hold.
-/

namespace WordMachine.Display

/-- What is done to a display. -/
inductive Act
  /-- Takes note of a store. -/
  | write (address value : Word)
  /-- Blanks the display. -/
  | clear
  /-- Asks whether anything was drawn. -/
  | takeDirty
  deriving DecidableEq

namespace Act

def perform (display : Display) : Act → Display
  | write address value => display.onWrite address value
  | clear => display.clear
  | takeDirty => display.takeDirty.2

/-- The value that the act gives to the cell of an address, if it gives one. -/
def value? (address : Word) : Act → Option Word
  | write other value => if other = address then some value else none
  | clear => some 0
  | takeDirty => none

/-- Whether the act is a store in the window or blanks the display. -/
def draws : Act → Bool
  | write address _ => contains address
  | clear => true
  | takeDirty => false

end Act

/-- A display after acts, the earliest first. -/
def after (acts : List Act) : Display :=
  acts.foldl Act.perform powerOn

/-- The value that was last given to the cell of an address, by a store or as a blank. -/
def lastValue (acts : List Act) (address : Word) : Word :=
  (acts.reverse.findSome? (Act.value? address)).getD 0

/-- The address of a cell. -/
def cellAddress (row column : Nat) : Word :=
  UInt16.ofNat (0x8000 + 32 * row + column)

/-- The characters of the words last given to the cells of a row. -/
def rowShown (acts : List Act) (row : Nat) : String :=
  String.ofList ((List.range 32).map fun column => glyph (lastValue acts (cellAddress row column)))

/-- Something was drawn since the last question. -/
def Drawn (acts : List Act) : Prop :=
  ∃ before act later, acts = before ++ act :: later ∧
    act.draws = true ∧ ∀ other ∈ later, other ≠ .takeDirty

theorem after_snoc (acts : List Act) (act : Act) :
    after (acts ++ [act]) = act.perform (after acts) :=
  List.foldl_append

theorem lastValue_snoc (acts : List Act) (act : Act) (address : Word) :
    lastValue (acts ++ [act]) address = (act.value? address).getD (lastValue acts address) := by
  rw [lastValue, List.reverse_append, List.reverse_singleton, List.singleton_append,
    List.findSome?_cons]
  cases act.value? address <;> rfl

theorem position_eq_some_iff {address : Word} {row column : Nat} :
    position address = some (row, column) ↔
      address.toNat = 0x8000 + 32 * row + column ∧ row < 12 ∧ column < 32 := by
  rw [position, Option.map_eq_some_iff]
  constructor
  · rintro ⟨k, hk, hposition⟩
    rw [offset?_eq_some_iff] at hk
    obtain ⟨rfl, rfl⟩ := Prod.mk.inj hposition
    have hlt := k.isLt
    simp only [columns]
    omega
  · rintro ⟨haddress, hrow, hcolumn⟩
    refine ⟨⟨32 * row + column, by omega⟩, offset?_eq_some_iff.mpr ?_, ?_⟩
    · exact haddress.trans (Nat.add_assoc _ _ _)
    · rw [Prod.mk.injEq]
      simp only [columns]
      omega

theorem toNat_cell {n : Nat} (h : n < 384) : (UInt16.ofNat (0x8000 + n)).toNat = 0x8000 + n :=
  Nat.mod_eq_of_lt (by omega)

/-- The cells hold the values that were last given to them. -/
theorem get_cells_after (acts : List Act) (k : Fin 384) :
    (after acts).cells.get k = lastValue acts (UInt16.ofNat (0x8000 + k.val)) := by
  induction acts using List.reverseRecOn with
  | nil => exact get_cells_powerOn k
  | append_singleton acts act ih =>
    rw [after_snoc, lastValue_snoc]
    cases act with
    | write address value =>
      have hsame : address = UInt16.ofNat (0x8000 + k.val) ↔ address.toNat = 0x8000 + k.val := by
        rw [← UInt16.toNat_inj, toNat_cell k.isLt]
      rw [Act.perform, get_cells_onWrite, ih, Act.value?]
      simp only [hsame]
      split <;> rfl
    | clear => exact get_cells_powerOn k
    | takeDirty => exact ih

theorem dirty_onWrite (display : Display) (address value : Word) :
    (display.onWrite address value).dirty = (contains address || display.dirty) := by
  rw [onWrite, contains]
  cases offset? address <;> rfl

/-- An act that draws counts until the next question. -/
theorem dirty_perform (display : Display) (act : Act) :
    (act.perform display).dirty = true ↔
      act.draws = true ∨ display.dirty = true ∧ act ≠ .takeDirty := by
  cases act with
  | write address value => simp [Act.perform, dirty_onWrite, Act.draws]
  | clear => simp [Act.perform, clear, Act.draws]
  | takeDirty => simp [Act.perform, takeDirty, Act.draws]

theorem dirty_after (acts : List Act) : (after acts).dirty = true ↔ Drawn acts := by
  induction acts using List.reverseRecOn with
  | nil =>
    refine iff_of_false Bool.false_ne_true ?_
    rintro ⟨before, act, later, heq, -⟩
    simp at heq
  | append_singleton acts act ih =>
    rw [after_snoc, dirty_perform, ih]
    exact (exists_split_snoc (P := fun _ act => Act.draws act = true)
      (Q := fun act => act ≠ Act.takeDirty)).symm

theorem index_of_lt {n : Nat} (overflow : Overflow) (h : n < UInt64.size) :
    overflow.index n = .ok n :=
  if_pos h

/-- The lookup of a cell computes with numbers of the window alone. -/
theorem findCell_eq (overflow : Overflow) (display : Display) (row column : Nat) :
    display.findCell overflow row column =
      .ok (if row < 12 ∧ column < 32 then display.cells[row * 32 + column]? else none) := by
  have hsize : UInt64.size = 18446744073709551616 := rfl
  rw [findCell]
  by_cases hcell : row < 12 ∧ column < 32
  · have hinside : ¬(rows ≤ row ∨ columns ≤ column) := by
      simp only [rows, columns]
      omega
    have hfirst : overflow.index (row * columns) = .ok (row * columns) :=
      index_of_lt overflow (by simp only [columns]; omega)
    have hplace : overflow.index (row * columns + column) = .ok (row * columns + column) :=
      index_of_lt overflow (by simp only [columns]; omega)
    rw [if_neg hinside, if_pos hcell, hfirst]
    change (overflow.index (row * columns + column) >>= fun place => pure display.cells[place]?) = _
    rw [hplace]
    rfl
  · have houtside : rows ≤ row ∨ columns ≤ column := by
      simp only [rows, columns]
      omega
    rw [if_pos houtside, if_neg hcell]
    rfl

/-- The row whose first place is an index and the place behind its last is none. -/
def lastIndexedRow : Nat := 0x7ffffffffffffff

theorem row_cases (row : Nat) :
    row * columns + columns < UInt64.size ∨ row = lastIndexedRow ∨ UInt64.size ≤ row * columns := by
  have hsize : UInt64.size = 18446744073709551616 := rfl
  have hlast : lastIndexedRow = 576460752303423487 := rfl
  simp only [columns]
  omega

theorem slice?_eq_none (display : Display) {start stop : Nat} (h : 384 < stop ∨ stop < start) :
    display.slice? start stop = none := by
  rw [slice?, if_neg (by omega)]

section

variable (overflow : Overflow) (display : Display)

theorem findRow_of_lt {row : Nat} (h : row * columns + columns < UInt64.size) :
    display.findRow overflow row =
      .ok ((display.slice? (row * columns) (row * columns + columns)).map shown) := by
  have hstart : ¬UInt64.size ≤ row * columns := by omega
  rw [findRow, if_neg hstart, index_of_lt overflow h]
  rfl

theorem findRow_of_le {row : Nat} (h : UInt64.size ≤ row * columns) :
    display.findRow overflow row = .ok none := by
  rw [findRow, if_pos h]
  rfl

/-- Behind the last row with an index the places start again at zero, which makes no slice. -/
theorem findRow_wraps_last : display.findRow .wraps lastIndexedRow = .ok none := by
  have hstart : ¬UInt64.size ≤ lastIndexedRow * columns := by decide
  have hstop : Overflow.index .wraps (lastIndexedRow * columns + columns) = .ok 0 := rfl
  have hempty : display.slice? (lastIndexedRow * columns) 0 = none :=
    slice?_eq_none display (.inr (by decide))
  rw [findRow, if_neg hstart, hstop]
  change Except.ok ((display.slice? (lastIndexedRow * columns) 0).map shown) = _
  rw [hempty]
  rfl

/-- The lookup of a row breaks off at one row alone, and only where overflow is not let through. -/
theorem findRow_eq (row : Nat) :
    display.findRow overflow row =
      if overflow = .fails ∧ row = lastIndexedRow then .error ⟨UInt64.size⟩
      else .ok (display.rowText row) := by
  rw [rowText]
  rcases row_cases row with hlt | rfl | hge
  · have hnot : ¬(overflow = .fails ∧ row = lastIndexedRow) := by
      rintro ⟨-, rfl⟩
      exact absurd hlt (by decide)
    rw [if_neg hnot, findRow_of_lt overflow display hlt, findRow_of_lt .wraps display hlt]
    rfl
  · cases overflow with
    | fails => rfl
    | wraps =>
      rw [findRow_wraps_last]
      rfl
  · have hnot : ¬(overflow = .fails ∧ row = lastIndexedRow) := by
      rintro ⟨-, rfl⟩
      exact absurd hge (by decide)
    rw [if_neg hnot, findRow_of_le overflow display hge, findRow_of_le .wraps display hge]
    rfl

/-- A row is found if it is on the display, and then it is a chunk of the cells. -/
theorem rowText_eq (row : Nat) :
    display.rowText row =
      if row < 12 then some (shown ((display.cells.toList.drop (row * 32)).take 32)) else none := by
  have hsize : UInt64.size = 18446744073709551616 := rfl
  rw [rowText]
  by_cases hinside : row < 12
  · have hslice : row * columns ≤ row * columns + columns ∧ row * columns + columns ≤ 384 := by
      simp only [columns]
      omega
    rw [if_pos hinside, findRow_of_lt .wraps display (by omega), slice?, if_pos hslice,
      Nat.add_sub_cancel_left]
    rfl
  · rw [if_neg hinside]
    rcases row_cases row with hlt | rfl | hge
    · have hpast : 384 < row * columns + columns := by
        simp only [columns]
        omega
      rw [findRow_of_lt .wraps display hlt, slice?_eq_none display (.inl hpast)]
      rfl
    · rw [findRow_wraps_last]
      rfl
    · rw [findRow_of_le .wraps display hge]
      rfl

end

theorem getElem?_cells_after (acts : List Act) {row column : Nat} (hrow : row < 12)
    (hcolumn : column < 32) :
    (after acts).cells[row * 32 + column]? = some (lastValue acts (cellAddress row column)) := by
  have hlt : row * 32 + column < 384 := by omega
  have haddress : cellAddress row column = UInt16.ofNat (0x8000 + (row * 32 + column)) := by
    rw [cellAddress, Nat.add_assoc, Nat.mul_comm]
  rw [haddress, ← get_cells_after acts ⟨row * 32 + column, hlt⟩]
  exact Vector.getElem?_eq_getElem hlt

/-- A slice and a chunk of the cells are the cells of a row. -/
theorem shown_cells_after (acts : List Act) {row : Nat} (hrow : row < 12) :
    shown (((after acts).cells.toList.drop (row * 32)).take 32) = rowShown acts row := by
  have hcells : ((after acts).cells.toList.drop (row * 32)).take 32 =
      (List.range 32).map fun column => lastValue acts (cellAddress row column) := by
    apply List.ext_getElem?
    intro column
    rw [List.getElem?_map, List.getElem?_take]
    by_cases hcolumn : column < 32
    · rw [if_pos hcolumn, List.getElem?_drop, Vector.getElem?_toList,
        getElem?_cells_after acts hrow hcolumn, List.getElem?_range hcolumn]
      rfl
    · have hpast : (List.range 32)[column]? = none :=
        List.getElem?_eq_none (List.length_range.trans_le (Nat.not_lt.mp hcolumn))
      rw [if_neg hcolumn, hpast]
      rfl
  rw [hcells, shown, rowShown, List.map_map]
  rfl

theorem rowText_after (acts : List Act) (row : Nat) :
    (after acts).rowText row = if row < 12 then some (rowShown acts row) else none := by
  rw [rowText_eq]
  split
  · rename_i hinside
    rw [shown_cells_after acts hinside]
  · rfl

theorem rowTexts_after (acts : List Act) :
    (after acts).rowTexts = (List.range 12).map (rowShown acts) := by
  refine List.filterMap_eq_map_iff_forall_eq_some.mpr fun row hrow => ?_
  rw [rowText_after]
  exact if_pos (List.mem_range.mp hrow)

/-- All views of a display agree, whatever was done to it.  An address has the place whose cell it
is; a cell is found at the places of the window and nowhere else, and holds the value that was last
given to it; a row is found if it is one of the twelve, and shows its cells; the text is that of the
twelve rows; and the answer to a question is whether something was drawn since the last one.  For
this no index is too large, except the end of one row far below the display, the first number that
sixty-four bits do not hold: a host that minds overflow breaks off there. -/
theorem views_agree (acts : List Act) :
    let display := after acts
    (∀ address row column, position address = some (row, column) ↔
      address.toNat = 0x8000 + 32 * row + column ∧ row < 12 ∧ column < 32) ∧
    (∀ row column, display.cell row column =
      if row < 12 ∧ column < 32 then some (lastValue acts (cellAddress row column)) else none) ∧
    (∀ row, display.rowText row = if row < 12 then some (rowShown acts row) else none) ∧
    display.rowTexts = (List.range 12).map (rowShown acts) ∧
    display.text = "\n".intercalate display.rowTexts ∧
    (display.takeDirty.1 = true ↔ Drawn acts) ∧
    (∀ overflow row column,
      display.findCell overflow row column = .ok (display.cell row column)) ∧
    (∀ overflow row, display.findRow overflow row =
      if overflow = .fails ∧ row = 0x7ffffffffffffff then .error ⟨0x10000000000000000⟩
      else .ok (display.rowText row)) := by
  intro display
  refine ⟨fun _ _ _ => position_eq_some_iff, fun row column => ?_, rowText_after acts,
    rowTexts_after acts, ?_, dirty_after acts, fun overflow row column => ?_,
    fun overflow row => findRow_eq overflow _ row⟩
  · rw [cell, findCell_eq]
    split
    · rename_i hcell
      rw [getElem?_cells_after acts hcell.1 hcell.2]
      rfl
    · rfl
  · rw [text, rowTexts_after]
    congr 1
    refine List.map_congr_left fun row hrow => ?_
    exact shown_cells_after acts (List.mem_range.mp hrow)
  · rw [cell, findCell_eq, findCell_eq]
    rfl

/-- The end of the row before `0x800000000000000` is too large for an index. -/
theorem not_forall_findRow :
    ¬∀ (acts : List Act) (row : UInt64),
      ∃ found, (after acts).findRow .fails row.toNat = .ok found := by
  intro h
  obtain ⟨found, hfound⟩ := h [] 0x7ffffffffffffff
  contradiction

end WordMachine.Display
