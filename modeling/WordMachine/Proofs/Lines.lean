import Mathlib.Data.List.TakeWhile
import WordMachine.Text.Lines

/-!
# Lines and blanks

A text is cut at its line feeds, each with a carriage return before it if there is one, and a line
is trimmed of the blanks at its ends.  `Splits` and `Trims` say so without the algorithms, and
`splits_iff` and `trims_iff` say that the algorithms give just that.
-/

namespace WordMachine

namespace Lines

/-- The lines that a text is split into. -/
inductive Splits : List Char → List (List Char) → Prop
  | nil : Splits [] []
  /-- A last line without an end of its own. -/
  | last {line : List Char} (hne : line ≠ []) (hline : '\n' ∉ line) : Splits line [line]
  | feed {line rest : List Char} {lines : List (List Char)} (hline : '\n' ∉ line)
      (hreturn : line.getLast? ≠ some '\r') (h : Splits rest lines) :
      Splits (line ++ '\n' :: rest) (line :: lines)
  | returnFeed {line rest : List Char} {lines : List (List Char)} (hline : '\n' ∉ line)
      (h : Splits rest lines) : Splits (line ++ '\r' :: '\n' :: rest) (line :: lines)

theorem pieces_of_not_mem {line : List Char} (hline : '\n' ∉ line) : pieces line = (line, []) := by
  induction line with
  | nil => rfl
  | cons c line ih =>
    obtain ⟨hc, hline⟩ := not_or.mp (mt List.mem_cons.mpr hline)
    change (if c = '\n' then _ else _) = _
    rw [if_neg (Ne.symm hc)]
    exact congrArg (fun piece : List Char × List (List Char) => (c :: piece.1, piece.2)) (ih hline)

theorem pieces_append_feed {line : List Char} (hline : '\n' ∉ line) (rest : List Char) :
    pieces (line ++ '\n' :: rest) = (line, (pieces rest).1 :: (pieces rest).2) := by
  induction line with
  | nil => rfl
  | cons c line ih =>
    obtain ⟨hc, hline⟩ := not_or.mp (mt List.mem_cons.mpr hline)
    change (if c = '\n' then _ else _) = _
    rw [if_neg (Ne.symm hc)]
    exact congrArg (fun piece : List Char × List (List Char) => (c :: piece.1, piece.2)) (ih hline)

theorem split_of_not_mem {line : List Char} (hne : line ≠ []) (hline : '\n' ∉ line) :
    split line = [line] := by
  rw [split, pieces_of_not_mem hline]
  simp [close, hne]

/-- The first line is what stands before the first line feed. -/
theorem split_append_feed {line : List Char} (hline : '\n' ∉ line) (rest : List Char) :
    split (line ++ '\n' :: rest) = dropReturn line :: split rest := by
  simp only [split, pieces_append_feed hline, close]

theorem dropReturn_eq_self {line : List Char} (h : line.getLast? ≠ some '\r') :
    dropReturn line = line :=
  if_neg h

theorem dropReturn_append_return (line : List Char) : dropReturn (line ++ ['\r']) = line := by
  simp [dropReturn]

theorem Splits.eq_split {text : List Char} {lines : List (List Char)} (h : Splits text lines) :
    lines = split text := by
  induction h with
  | nil => rfl
  | last hne hline => exact (split_of_not_mem hne hline).symm
  | feed hline hreturn h ih => rw [split_append_feed hline, dropReturn_eq_self hreturn, ih]
  | @returnFeed line rest lines hline h ih =>
    have hfeed : '\n' ∉ line ++ ['\r'] := by simp [hline]
    have hsplit := split_append_feed hfeed rest
    rw [dropReturn_append_return, ← ih, List.append_assoc] at hsplit
    exact hsplit.symm

theorem splits_split (text : List Char) : Splits text (split text) := by
  induction hlength : text.length using Nat.strong_induction_on generalizing text with
  | _ length ih =>
    subst hlength
    by_cases hfeed : '\n' ∈ text
    · obtain ⟨line, rest, rfl, hline⟩ := List.eq_append_cons_of_mem hfeed
      have hrest := ih rest.length (by simp only [List.length_append, List.length_cons]; omega)
        rest rfl
      rw [split_append_feed hline]
      by_cases hreturn : line.getLast? = some '\r'
      · obtain ⟨before, rfl⟩ := List.getLast?_eq_some_iff.mp hreturn
        rw [dropReturn_append_return, List.append_assoc]
        exact .returnFeed (fun hmem => hline (List.mem_append_left _ hmem)) hrest
      · rw [dropReturn_eq_self hreturn]
        exact .feed hline hreturn hrest
    · cases text with
      | nil => exact .nil
      | cons c text =>
        rw [split_of_not_mem (List.cons_ne_nil c text) hfeed]
        exact .last (List.cons_ne_nil c text) hfeed

theorem splits_iff {text : List Char} {lines : List (List Char)} :
    Splits text lines ↔ lines = split text := by
  constructor
  · exact Splits.eq_split
  · rintro rfl
    exact splits_split text

/-- Lines with a line feed behind each are found again. -/
theorem split_flatMap_feed
    {lines : List (List Char)}
    (h : ∀ line ∈ lines, '\n' ∉ line ∧ line.getLast? ≠ some '\r') :
    split (lines.flatMap (· ++ ['\n'])) = lines := by
  induction lines with
  | nil => rfl
  | cons line lines ih =>
    obtain ⟨⟨hline, hreturn⟩, hlines⟩ := List.forall_mem_cons.mp h
    rw [List.flatMap_cons, List.append_assoc]
    change split (line ++ '\n' :: lines.flatMap (· ++ ['\n'])) = _
    rw [split_append_feed hline, dropReturn_eq_self hreturn, ih hlines]

end Lines

namespace Blank

/-- The characters with the Unicode property White_Space, one by one. -/
def whiteSpace : List Char :=
  ['\u0009', '\u000a', '\u000b', '\u000c', '\u000d', '\u0020', '\u0085', '\u00a0', '\u1680',
  '\u2000', '\u2001', '\u2002', '\u2003', '\u2004', '\u2005', '\u2006', '\u2007', '\u2008',
  '\u2009', '\u200a', '\u2028', '\u2029', '\u202f', '\u205f', '\u3000']

/-- The second text is the first without the white space at its ends. -/
def Trims (line source : List Char) : Prop :=
  ∃ before after, line = before ++ source ++ after ∧
    (∀ c ∈ before, c ∈ whiteSpace) ∧ (∀ c ∈ after, c ∈ whiteSpace) ∧
    (∀ c ∈ source.head?, c ∉ whiteSpace) ∧ ∀ c ∈ source.getLast?, c ∉ whiteSpace

theorem contains_iff {c : Char} : contains c = true ↔ c ∈ whiteSpace := by
  simp only [contains, ranges, List.any_cons, List.any_nil, Bool.or_eq_true, Bool.and_eq_true,
    decide_eq_true_eq, whiteSpace, List.mem_cons, List.not_mem_nil, ← Char.toNat_inj]
  simp only [Char.reduceToNat, Bool.false_eq_true, or_false]
  constructor
  · intro hranges
    omega
  · intro hcodes
    omega

theorem not_contains_iff {c : Char} : contains c = false ↔ c ∉ whiteSpace := by
  rw [← contains_iff, Bool.not_eq_true]

theorem not_contains_of_mem_head?_dropWhile
    (cs : List Char) {c : Char} (h : c ∈ (cs.dropWhile contains).head?) : contains c = false := by
  have hhead := List.head?_dropWhile_not contains cs
  rw [Option.mem_def.mp h] at hhead
  exact hhead

theorem dropWhile_contains_append
    {before rest : List Char} (hbefore : ∀ c ∈ before, contains c = true)
    (hrest : ∀ c ∈ rest.head?, contains c = false) :
    (before ++ rest).dropWhile contains = rest := by
  rw [List.dropWhile_append_of_pos hbefore]
  cases rest with
  | nil => rfl
  | cons c rest => exact List.dropWhile_cons_of_neg (ne_true_of_eq_false (hrest c rfl))

theorem Trims.eq_trim {line source : List Char} (h : Trims line source) : source = trim line := by
  obtain ⟨before, after, rfl, hbefore, hafter, hhead, hlast⟩ := h
  simp only [← contains_iff, Bool.not_eq_true] at hbefore hafter hhead hlast
  cases source with
  | nil =>
    have hall : ∀ c ∈ before ++ [] ++ after, contains c = true := by
      intro c hc
      simp only [List.append_nil, List.mem_append] at hc
      exact hc.elim (hbefore c) (hafter c)
    rw [trim, List.dropWhile_eq_nil_iff.mpr hall]
    rfl
  | cons c source =>
    have hfront : (before ++ (c :: source ++ after)).dropWhile contains = c :: source ++ after :=
      dropWhile_contains_append hbefore hhead
    have hback : ((c :: source ++ after).reverse).dropWhile contains = (c :: source).reverse := by
      rw [List.reverse_append]
      apply dropWhile_contains_append fun c hc => hafter c (List.mem_reverse.mp hc)
      rw [List.head?_reverse]
      exact hlast
    rw [trim, List.append_assoc, hfront, hback, List.reverse_reverse]

theorem trims_trim (line : List Char) : Trims line (trim line) := by
  let rest := line.dropWhile contains
  have hline : line.takeWhile contains ++ rest = line := List.takeWhile_append_dropWhile
  have hrest : trim line ++ (rest.reverse.takeWhile contains).reverse = rest := by
    rw [trim, ← List.reverse_append, List.takeWhile_append_dropWhile, List.reverse_reverse]
  refine ⟨line.takeWhile contains, (rest.reverse.takeWhile contains).reverse, ?_, ?_, ?_, ?_, ?_⟩
  · rw [List.append_assoc, hrest, hline]
  · exact fun c hc => contains_iff.mp (List.mem_takeWhile_imp hc)
  · exact fun c hc => contains_iff.mp (List.mem_takeWhile_imp (List.mem_reverse.mp hc))
  · intro c hc
    apply not_contains_iff.mp
    apply not_contains_of_mem_head?_dropWhile line
    change c ∈ rest.head?
    rw [← hrest, List.head?_append, Option.mem_def.mp hc]
    rfl
  · intro c hc
    rw [trim, List.getLast?_reverse] at hc
    exact not_contains_iff.mp (not_contains_of_mem_head?_dropWhile _ hc)

theorem trims_iff {line source : List Char} : Trims line source ↔ source = trim line := by
  constructor
  · exact Trims.eq_trim
  · rintro rfl
    exact trims_trim line

/-- A text without a blank at its ends is trimmed. -/
theorem trim_eq_self
    {line : List Char} (hhead : ∀ c ∈ line.head?, contains c = false)
    (hlast : ∀ c ∈ line.getLast?, contains c = false) : trim line = line := by
  simp only [not_contains_iff] at hhead hlast
  have htrims : Trims line line := ⟨[], [], by simp, by simp, by simp, hhead, hlast⟩
  exact htrims.eq_trim.symm

end Blank

end WordMachine
