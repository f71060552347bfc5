import Mathlib.Data.List.Induction
import WordMachine.Proofs.Grammar

/-!
# Comments behind words

A comment that is written behind the word on a line leaves the listing with the same words, unless
it begins with two slashes right behind the word: slashes do not end a token, so they are read as
part of the word, and the line is refused.  `ofString_comment` says so for every line of every
listing, and `not_forall_comment` shows such a line.
-/

namespace WordMachine

namespace Blank

/-- A blank at the end is trimmed. -/
theorem trim_concat_blank (line : List Char) {c : Char} (hc : c ∈ whiteSpace) :
    trim (line ++ [c]) = trim line := by
  obtain ⟨before, after, hline, hbefore, hafter, hends⟩ := trims_trim line
  refine (Trims.eq_trim ⟨before, after ++ [c], ?_, hbefore, ?_, hends⟩).symm
  · rw [← List.append_assoc, ← hline]
  · intro d hd
    rcases List.mem_append.mp hd with hd | hd
    · exact hafter d hd
    · rwa [List.mem_singleton.mp hd]

/-- Every text ends in blanks, or in none, behind a last character that is not blank. -/
theorem exists_append_blanks (text : List Char) :
    ∃ front blanks, text = front ++ blanks ∧ (∀ c ∈ blanks, c ∈ whiteSpace) ∧
      ∀ c ∈ front.getLast?, c ∉ whiteSpace := by
  induction text using List.reverseRecOn with
  | nil => exact ⟨[], [], rfl, by simp, by simp⟩
  | append_singleton text c ih =>
    by_cases hc : c ∈ whiteSpace
    · obtain ⟨front, blanks, rfl, hblanks, hfront⟩ := ih
      refine ⟨front, blanks ++ [c], List.append_assoc .., fun d hd => ?_, hfront⟩
      rcases List.mem_append.mp hd with hd | hd
      · exact hblanks d hd
      · rwa [List.mem_singleton.mp hd]
    · refine ⟨text ++ [c], [], (List.append_nil _).symm, by simp, fun d hd => ?_⟩
      rw [List.getLast?_concat, Option.mem_some_iff] at hd
      rwa [← hd]

/-- A text between two characters that are not blank is not cut by trimming what follows it. -/
theorem exists_trim_append
    {blanks kept : List Char} (hblanks : ∀ c ∈ blanks, c ∈ whiteSpace)
    (hhead : ∃ c ∈ kept.head?, c ∉ whiteSpace)
    (hlast : ∃ c ∈ kept.getLast?, c ∉ whiteSpace) (text : List Char) :
    ∃ text', text' <+: text ∧ trim (blanks ++ kept ++ text) = kept ++ text' := by
  obtain ⟨front, rest, rfl, hrest, hfront⟩ := exists_append_blanks text
  obtain ⟨first, hfirst, hhead⟩ := hhead
  obtain ⟨last, hlast, hend⟩ := hlast
  refine ⟨front, List.prefix_append front rest,
    (Trims.eq_trim ⟨blanks, rest, ?_, hblanks, hrest, ?_, ?_⟩).symm⟩
  · simp only [List.append_assoc]
  · intro c hc
    rw [List.head?_append, Option.mem_def.mp hfirst, Option.some_or, Option.mem_some_iff] at hc
    rwa [← hc]
  · intro c hc
    rw [List.getLast?_append, Option.mem_def.mp hlast] at hc
    cases hfrontLast : front.getLast? with
    | none =>
      rw [hfrontLast, Option.none_or, Option.mem_some_iff] at hc
      rwa [← hc]
    | some d =>
      rw [hfrontLast, Option.some_or, Option.mem_some_iff] at hc
      exact hfront c (by rw [hfrontLast, hc]; rfl)

end Blank

namespace Lines

/-- What follows on a line in a text: nothing, or the end of the line and the rest of the text. -/
inductive Ends (line : List Char) : List Char → List Char → Prop
  | last : Ends line [] []
  | feed {rest : List Char} (hreturn : line.getLast? ≠ some '\r') : Ends line ('\n' :: rest) rest
  | returnFeed {rest : List Char} : Ends line ('\r' :: '\n' :: rest) rest

/-- A text has a line between what comes before it and what comes after it, where the rest begins
behind the end of the line. -/
structure LineIn (text before line after rest : List Char) : Prop where
  text_eq : text = before ++ line ++ after
  starts : before = [] ∨ before.getLast? = some '\n'
  whole : '\n' ∉ line
  ends : Ends line after rest

theorem trim_dropReturn (line : List Char) : Blank.trim (dropReturn line) = Blank.trim line := by
  by_cases hreturn : line.getLast? = some '\r'
  · obtain ⟨before, rfl⟩ := List.getLast?_eq_some_iff.mp hreturn
    rw [dropReturn_append_return, Blank.trim_concat_blank before (by decide)]
  · rw [dropReturn_eq_self hreturn]

/-- A text is cut behind a line feed. -/
theorem split_append {before : List Char} (h : before = [] ∨ before.getLast? = some '\n')
    (text : List Char) : split (before ++ text) = split before ++ split text := by
  induction hlength : before.length using Nat.strong_induction_on generalizing before with
  | _ length ih =>
    subst hlength
    rcases h with rfl | hfeed
    · rfl
    · have hmem : '\n' ∈ before := List.mem_of_getLast? hfeed
      obtain ⟨line, rest, rfl, hline⟩ := List.eq_append_cons_of_mem hmem
      have hrest : rest = [] ∨ rest.getLast? = some '\n' := by
        rcases List.eq_nil_or_concat rest with rfl | ⟨init, c, rfl⟩
        · exact .inl rfl
        · right
          rw [List.concat_eq_append] at hfeed ⊢
          rw [← List.cons_append, ← List.append_assoc, List.getLast?_concat] at hfeed
          rw [List.getLast?_concat, hfeed]
      have hsplit := ih rest.length (by simp only [List.length_append, List.length_cons]; omega)
        hrest rfl
      rw [split_append_feed hline, List.append_assoc, List.cons_append, split_append_feed hline,
        hsplit, List.cons_append]

/-- A line that takes the place of another is a line of its own, up to blanks at its end. -/
theorem Ends.exists_split
    {line after rest : List Char} (h : Ends line after rest) {other : List Char}
    (hne : other ≠ []) (hother : '\n' ∉ other) :
    ∃ line', split (other ++ after) = line' :: split rest ∧
      Blank.trim line' = Blank.trim other := by
  cases h with
  | last =>
    rw [List.append_nil, split_of_not_mem hne hother]
    exact ⟨other, rfl, rfl⟩
  | feed hreturn => exact ⟨_, split_append_feed hother rest, trim_dropReturn other⟩
  | returnFeed =>
    have hfeed : '\n' ∉ other ++ ['\r'] := by simp [hother]
    have hsplit := split_append_feed hfeed rest
    rw [dropReturn_append_return, List.append_assoc] at hsplit
    exact ⟨other, hsplit, rfl⟩

end Lines

namespace Listing

/-- A comment with blanks before it, on one line. -/
structure IsComment (comment : List Char) : Prop where
  marked : ∃ blanks mark text, comment = blanks ++ mark ++ text ∧
    (∀ c ∈ blanks, c ∈ Blank.whiteSpace) ∧ (mark = [';'] ∨ mark = ['/', '/'])
  whole : '\n' ∉ comment

/-- The comment begins with two slashes, and the line before it with its word, so that nothing
stands between them. -/
def Glued (line comment : List Char) : Prop :=
  (∃ blanks token, line = blanks ++ token ∧ (∀ c ∈ blanks, c ∈ Blank.whiteSpace) ∧
    ∀ c ∈ token, ¬EndsToken c) ∧ ['/', '/'] <+: comment

theorem mem_of_numeral
    {token numeral : List Char} {n : Nat} (hunmarked : Unmarked token numeral)
    (hnumeral : Numeral numeral n) {c : Char} (hc : c ∈ token) :
    (Hex.value? c).isSome = true ∨ c = '+' ∨ c = 'x' ∨ c = 'X' := by
  have hmem {d : Char} (hd : d ∈ numeral) : (Hex.value? d).isSome = true ∨ d = '+' := by
    cases hnumeral with
    | plain hne hdigits => exact .inl ((Hex.denotes_iff.mp hdigits).1 d hd)
    | signed hne hdigits =>
      rcases List.mem_cons.mp hd with rfl | hd
      · exact .inr rfl
      · exact .inl ((Hex.denotes_iff.mp hdigits).1 d hd)
  have hzero : (Hex.value? '0').isSome = true := by decide
  cases hunmarked with
  | lower =>
    rcases List.mem_cons.mp hc with rfl | hc
    · exact .inl hzero
    · rcases List.mem_cons.mp hc with rfl | hc
      · exact .inr (.inr (.inl rfl))
      · exact (hmem hc).imp_right .inl
  | upper =>
    rcases List.mem_cons.mp hc with rfl | hc
    · exact .inl hzero
    · rcases List.mem_cons.mp hc with rfl | hc
      · exact .inr (.inr (.inr rfl))
      · exact (hmem hc).imp_right .inl
  | none hlower hupper => exact (hmem hc).imp_right .inl

/-- The token is that of a word. -/
def IsWord (token : List Char) (word : Word) : Prop :=
  (∀ c ∈ token, endsToken c = false) ∧ readNumber (dropMarker token) = .ok word

theorem not_mem_whiteSpace_of_not_endsToken {c : Char} (h : endsToken c = false) :
    c ∉ Blank.whiteSpace := by
  simp only [endsToken, Bool.or_eq_false_iff] at h
  exact Blank.not_contains_iff.mp h.1.1

namespace IsWord

variable {token : List Char} {word : Word}

theorem ne_nil (h : IsWord token word) : token ≠ [] := by
  rintro rfl
  exact absurd h.2 (by simp [dropMarker, readNumber])

/-- A word is made of digits and of what may stand before them. -/
theorem mem (h : IsWord token word) {c : Char} (hc : c ∈ token) :
    (Hex.value? c).isSome = true ∨ c = '+' ∨ c = 'x' ∨ c = 'X' :=
  mem_of_numeral (unmarked_iff.mpr rfl) (readNumber_eq_ok_iff.mp h.2) hc

theorem not_mem_slash (h : IsWord token word) : '/' ∉ token :=
  fun hmem => absurd (h.mem hmem) (by decide)

theorem isIgnored_append (h : IsWord token word) (rest : List Char) :
    isIgnored (token ++ rest) = false := by
  obtain ⟨c, cs, rfl⟩ := List.exists_cons_of_ne_nil h.ne_nil
  have hc := h.mem List.mem_cons_self
  rw [← Bool.not_eq_true, isIgnored_iff]
  rintro (hnil | ⟨_, heq⟩ | ⟨_, heq⟩ | ⟨_, heq⟩)
  · contradiction
  all_goals
    obtain ⟨rfl, -⟩ := List.cons.inj heq
    exact absurd hc (by decide)

/-- Trimming a line takes nothing from its word. -/
theorem exists_trim_append
    (h : IsWord token word) {blanks : List Char} (hblanks : ∀ c ∈ blanks, c ∈ Blank.whiteSpace)
    (rest : List Char) :
    ∃ rest', rest' <+: rest ∧ Blank.trim (blanks ++ token ++ rest) = token ++ rest' := by
  have hplain : ∀ c ∈ token, c ∉ Blank.whiteSpace :=
    fun c hc => not_mem_whiteSpace_of_not_endsToken (h.1 c hc)
  refine Blank.exists_trim_append hblanks ?_ ?_ rest
  · exact ⟨_, List.head?_eq_some_head h.ne_nil, hplain _ (List.head_mem h.ne_nil)⟩
  · exact ⟨_, List.getLast?_eq_some_getLast h.ne_nil, hplain _ (List.getLast_mem h.ne_nil)⟩

end IsWord

/-- A line holds a word if the word stands behind blanks, or none, and before the end of the line or
a character that ends its token. -/
theorem exists_holds_iff {line : List Char} {word : Word} :
    (∃ source, Holds line ⟨word, source⟩) ↔
      ∃ blanks token rest, line = blanks ++ token ++ rest ∧
        (∀ c ∈ blanks, c ∈ Blank.whiteSpace) ∧ IsWord token word ∧
        ∀ c ∈ rest.head?, endsToken c = true := by
  constructor
  · rintro ⟨source, hholds⟩
    obtain ⟨rfl, -, hread⟩ := holds_iff.mp hholds
    obtain ⟨before, after, hline, hbefore, hafter, -, -⟩ := hholds.trims
    have hsource : token (Blank.trim line) ++
        (Blank.trim line).dropWhile (!endsToken ·) = Blank.trim line :=
      List.takeWhile_append_dropWhile
    refine ⟨before, token (Blank.trim line),
      (Blank.trim line).dropWhile (!endsToken ·) ++ after, ?_, hbefore, ⟨?_, hread⟩, ?_⟩
    · rw [← List.append_assoc, List.append_assoc before, hsource]
      exact hline
    · intro c hc
      simpa using List.mem_takeWhile_imp hc
    · intro c hc
      have hhead := List.head?_dropWhile_not (!endsToken ·) (Blank.trim line)
      cases hrest : (Blank.trim line).dropWhile (!endsToken ·) with
      | nil =>
        rw [hrest, List.nil_append] at hc
        exact endsToken_iff.mpr (.inl (hafter c (List.mem_of_mem_head? hc)))
      | cons d rest =>
        rw [hrest] at hc hhead
        obtain rfl := Option.some.inj hc
        simpa using hhead
  · rintro ⟨blanks, cs, rest, rfl, hblanks, hword, hrest⟩
    obtain ⟨rest', hprefix, htrim⟩ := hword.exists_trim_append hblanks rest
    have hrest' : ∀ c ∈ rest'.head?, endsToken c = true := by
      obtain ⟨more, rfl⟩ := hprefix
      intro c hc
      exact hrest c (by rw [List.head?_append, Option.mem_def.mp hc]; rfl)
    refine ⟨_, holds_iff.mpr ⟨rfl, ?_, ?_⟩⟩
    · rw [htrim]
      exact hword.isIgnored_append rest'
    · rw [htrim, token_append hword.1 hrest']
      exact hword.2

/-- A line keeps its word when a comment is appended that is not glued to it. -/
theorem Holds.append_comment
    {line comment : List Char} {entry : ListingEntry} (h : Holds line entry)
    (hcomment : IsComment comment) (hfree : ¬Glued line comment) :
    ∃ source, Holds (line ++ comment) ⟨entry.word, source⟩ := by
  obtain ⟨blanks, cs, rest, rfl, hblanks, hword, hrest⟩ := exists_holds_iff.mp ⟨_, h⟩
  refine exists_holds_iff.mpr
    ⟨blanks, cs, rest ++ comment, List.append_assoc .., hblanks, hword, ?_⟩
  cases rest with
  | cons d rest => exact hrest
  | nil =>
    obtain ⟨gap, mark, text, rfl, hgap, hmark⟩ := hcomment.marked
    intro c hc
    cases gap with
    | cons d gap =>
      obtain rfl := Option.some.inj hc
      exact endsToken_iff.mpr (.inl (hgap d List.mem_cons_self))
    | nil =>
      rcases hmark with rfl | rfl
      · obtain rfl := Option.some.inj hc
        decide
      · refine (hfree ⟨⟨blanks, cs, List.append_nil _, hblanks, fun d hd => ?_⟩, ?_⟩).elim
        · rw [← endsToken_iff, hword.1 d hd]
          exact Bool.false_ne_true
        · exact List.prefix_append _ text

/-- A comment that is glued to its word becomes a part of the token, which is then no word. -/
theorem Holds.faulty_of_glued
    {line comment : List Char} {entry : ListingEntry} (h : Holds line entry)
    (hglued : Glued line comment) : ∃ token, Faulty (line ++ comment) token := by
  obtain ⟨⟨blanks, cs, rfl, hblanks, hends⟩, text, rfl⟩ := hglued
  have hfree : ∀ c ∈ cs, endsToken c = false := fun c hc => by
    rw [← Bool.not_eq_true, endsToken_iff]
    exact hends c hc
  have hplain : ∀ c ∈ cs, c ∉ Blank.whiteSpace :=
    fun c hc => not_mem_whiteSpace_of_not_endsToken (hfree c hc)
  have htrim : cs = Blank.trim (blanks ++ cs) :=
    Blank.Trims.eq_trim ⟨blanks, [], (List.append_nil _).symm, hblanks, by simp,
      fun c hc => hplain c (List.mem_of_mem_head? hc),
      fun c hc => hplain c (List.mem_of_getLast? hc)⟩
  have hword : IsWord cs entry.word := by
    have hall : token (cs ++ []) = cs := token_append hfree (by simp)
    obtain ⟨-, -, hread⟩ := holds_iff.mp h
    rw [List.append_nil] at hall
    rw [← htrim, hall] at hread
    exact ⟨hfree, hread⟩
  have hhead : ∃ c ∈ (cs ++ ['/', '/']).head?, c ∉ Blank.whiteSpace :=
    ⟨cs.head hword.ne_nil, by simp [List.head?_append, List.head?_eq_some_head hword.ne_nil],
      hplain _ (List.head_mem hword.ne_nil)⟩
  have hlast : ∃ c ∈ (cs ++ ['/', '/']).getLast?, c ∉ Blank.whiteSpace :=
    ⟨'/', by simp, by decide⟩
  obtain ⟨text', -, hkept⟩ := Blank.exists_trim_append hblanks hhead hlast text
  simp only [List.append_assoc] at hkept
  have hslash : '/' ∈ token (cs ++ (['/', '/'] ++ text')) := by
    rw [token, List.takeWhile_append_of_pos (by simpa using hfree)]
    exact List.mem_append_right _ (by simp [(by decide : endsToken '/' = false)])
  refine ⟨_, faulty_iff.mpr ⟨rfl, ?_, ?_⟩⟩
  · rw [List.append_assoc, hkept]
    exact hword.isIgnored_append _
  · rw [List.append_assoc, hkept]
    cases hread : readNumber (dropMarker (token (cs ++ (['/', '/'] ++ text')))) with
    | error fault => exact ⟨fault, rfl⟩
    | ok word =>
      have hother : IsWord (token (cs ++ (['/', '/'] ++ text'))) word :=
        ⟨fun c hc => by simpa using List.mem_takeWhile_imp hc, hread⟩
      exact (hother.not_mem_slash hslash).elim

/-- Lines that are trimmed to the same text hold the same. -/
theorem Holds.congr
    {line line' : List Char} {entry : ListingEntry} (h : Holds line entry)
    (htrim : Blank.trim line' = Blank.trim line) : Holds line' entry := by
  rw [holds_iff] at h ⊢
  rwa [htrim]

theorem Faulty.congr
    {line line' token : List Char} (h : Faulty line token)
    (htrim : Blank.trim line' = Blank.trim line) : Faulty line' token := by
  rw [faulty_iff] at h ⊢
  rwa [htrim]

theorem Holds.unique
    {line : List Char} {entry entry' : ListingEntry} (h : Holds line entry)
    (h' : Holds line entry') : entry = entry' := by
  have hread := h.readLine_eq 0
  rw [h'.readLine_eq 0] at hread
  exact (Option.some.inj (Except.ok.inj hread)).symm

/-- A listing with a line that holds a word is read from the lines before it, from this line and
from the lines behind it. -/
theorem Reads.exists_of_holds
    {before after : List (List Char)} {line : List Char} {entry : ListingEntry}
    {listing : Listing} (h : Reads (before ++ line :: after) listing) (hline : Holds line entry) :
    ∃ first rest, Reads before first ∧ Reads after rest ∧ listing = first ++ entry :: rest := by
  generalize hlines : before ++ line :: after = lines at h
  induction h generalizing before with
  | nil => simp at hlines
  | @pass other others listing hother h ih =>
    cases before with
    | nil =>
      obtain ⟨rfl, rfl⟩ := List.cons.inj hlines
      have hread := hother.readLine_eq 0
      rw [hline.readLine_eq 0] at hread
      simp at hread
    | cons head before =>
      obtain ⟨rfl, hothers⟩ := List.cons.inj hlines
      obtain ⟨first, rest, hfirst, hrest, rfl⟩ := ih hothers
      exact ⟨first, rest, .pass hother hfirst, hrest, rfl⟩
  | @word other entry' others listing hother h ih =>
    cases before with
    | nil =>
      obtain ⟨rfl, rfl⟩ := List.cons.inj hlines
      obtain rfl := hline.unique hother
      exact ⟨[], listing, .nil, h, rfl⟩
    | cons head before =>
      obtain ⟨rfl, hothers⟩ := List.cons.inj hlines
      obtain ⟨first, rest, hfirst, hrest, rfl⟩ := ih hothers
      exact ⟨entry' :: first, rest, .word hother hfirst, hrest, rfl⟩

theorem Reads.append
    {before after : List (List Char)} {first rest : Listing} (h : Reads before first)
    (h' : Reads after rest) : Reads (before ++ after) (first ++ rest) := by
  induction h with
  | nil => exact h'
  | pass hline h ih => exact .pass hline ih
  | word hline h ih => exact .word hline ih

/-- A comment behind the word on a line leaves a listing with its words unless it is glued to the
word.  A glued comment makes the listing fail at this line. -/
theorem ofString_comment
    {text : String} {before line after rest comment : List Char} {listing : Listing}
    {entry : ListingEntry} (hline : Lines.LineIn text.toList before line after rest)
    (hread : ofString text = .ok listing) (hholds : Holds line entry)
    (hcomment : IsComment comment) :
    let commented := String.ofList (before ++ line ++ comment ++ after)
    ((∃ listing', ofString commented = .ok listing' ∧ listing'.words = listing.words) ↔
      ¬Glued line comment) ∧
    (Glued line comment → ∃ token fault, ofString commented =
      .error (.invalidWord ((Lines.split before).length + 1) token fault)) := by
  intro commented
  have hne : line ≠ [] := by
    rintro rfl
    exact hholds.counts (.inl (Blank.trims_iff.mp hholds.trims))
  obtain ⟨line₁, hsplit₁, htrim₁⟩ := hline.ends.exists_split hne hline.whole
  obtain ⟨line₂, hsplit₂, htrim₂⟩ := hline.ends.exists_split
    (List.append_ne_nil_of_left_ne_nil hne comment)
    (by simp [hline.whole, hcomment.whole] : '\n' ∉ line ++ comment)
  have hlines : Lines.split text.toList = Lines.split before ++ line₁ :: Lines.split rest := by
    rw [hline.text_eq, List.append_assoc, Lines.split_append hline.starts, hsplit₁]
  have hcommented : ofString commented =
      readLines 1 (Lines.split before ++ line₂ :: Lines.split rest) := by
    change readLines 1 (Lines.split commented.toList) = _
    rw [String.toList_ofList, List.append_assoc, List.append_assoc,
      Lines.split_append hline.starts, ← List.append_assoc line, hsplit₂]
  have hreads : Reads (Lines.split before ++ line₁ :: Lines.split rest) listing := by
    rw [← hlines]
    exact readLines_eq_ok_iff.mp hread
  obtain ⟨first, last, hfirst, hlast, rfl⟩ := hreads.exists_of_holds (hholds.congr htrim₁)
  have hfails : Glued line comment → ∃ token fault, ofString commented =
      .error (.invalidWord ((Lines.split before).length + 1) token fault) := by
    intro hglued
    obtain ⟨token, hfaulty⟩ := hholds.faulty_of_glued hglued
    have hat : FailsAt (Lines.split before ++ line₂ :: Lines.split rest)
        ((Lines.split before).length + 1) token :=
      ⟨_, _, _, rfl, rfl, ⟨first, hfirst⟩, hfaulty.congr htrim₂⟩
    rw [hcommented]
    exact ⟨token, hat.readLines_eq⟩
  refine ⟨⟨?_, fun hfree => ?_⟩, hfails⟩
  · rintro ⟨listing', hok, -⟩ hglued
    obtain ⟨token, fault, herror⟩ := hfails hglued
    rw [hok] at herror
    contradiction
  · obtain ⟨source, hsource⟩ := hholds.append_comment hcomment hfree
    have hreads' := hfirst.append (.word (hsource.congr htrim₂) hlast)
    refine ⟨_, hcommented.trans (hreads'.readLines_eq 1), ?_⟩
    simp [Listing.words]

/-- A comment right behind the word on the second of three lines. -/
theorem ofString_comment_semicolon :
    let text := "; head\r\n0x7c01\r\n0030"
    let line := "0x7c01".toList
    let comment := ";//".toList
    ¬Glued line comment ∧
    ∃ listing', ofString "; head\r\n0x7c01;//\r\n0030" = .ok listing' ∧
      ofString text = .ok [⟨0x7c01, line⟩, ⟨0x0030, "0030".toList⟩] ∧
      listing'.words = [0x7c01, 0x0030] := by
  intro text line comment
  have hread : ofString text = .ok [⟨0x7c01, line⟩, ⟨0x0030, "0030".toList⟩] := by decide +kernel
  have hline : Lines.LineIn text.toList "; head\r\n".toList line "\r\n0030".toList
      "0030".toList := ⟨by decide +kernel, .inr (by decide +kernel), by decide +kernel, .returnFeed⟩
  have hholds : Holds line ⟨0x7c01, line⟩ := holds_iff.mpr (by decide +kernel)
  have hcomment : IsComment comment :=
    ⟨⟨[], [';'], "//".toList, by decide +kernel, by simp, .inl rfl⟩, by decide +kernel⟩
  have hfree : ¬Glued line comment := fun hglued => by
    obtain ⟨-, hprefix⟩ := hglued
    exact absurd hprefix (by decide +kernel)
  obtain ⟨listing', hok, hwords⟩ := (ofString_comment hline hread hholds hcomment).1.mpr hfree
  exact ⟨hfree, listing', hok, hread, hwords⟩

/-- Not every comment leaves the words as they are: with two slashes right behind the word the line
is refused. -/
theorem not_forall_comment :
    ¬∀ (text : String) (before line after rest comment : List Char) (listing : Listing)
      (entry : ListingEntry), Lines.LineIn text.toList before line after rest →
      ofString text = .ok listing → Holds line entry → IsComment comment →
      ∃ listing', ofString (String.ofList (before ++ line ++ comment ++ after)) = .ok listing' ∧
        listing'.words = listing.words := by
  intro hall
  let line := "9401".toList
  let comment := "//x".toList
  have hread : ofString "9401" = .ok [⟨0x9401, line⟩] := by decide +kernel
  have hline : Lines.LineIn "9401".toList [] line [] [] :=
    ⟨by decide +kernel, .inl rfl, by decide +kernel, .last⟩
  have hholds : Holds line ⟨0x9401, line⟩ := holds_iff.mpr (by decide +kernel)
  have hcomment : IsComment comment :=
    ⟨⟨[], ['/', '/'], ['x'], by decide +kernel, by simp, .inr rfl⟩, by decide +kernel⟩
  obtain ⟨listing', hok, -⟩ :=
    hall "9401" [] line [] [] comment _ _ hline hread hholds hcomment
  have herror : ofString (String.ofList ([] ++ line ++ comment ++ [])) =
      .error (.invalidWord 1 "9401//x".toList .invalidDigit) := by decide +kernel
  rw [hok] at herror
  contradiction

end Listing

end WordMachine
