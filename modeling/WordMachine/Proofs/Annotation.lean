import WordMachine.Listing
import WordMachine.Proofs.Grammar
import WordMachine.Proofs.Sweep

/-!
# Annotated listings

A printed listing has one line for each word, and reads back as the words that were printed: what
an instruction's first line has behind its word is a comment to the reader.  The comments are the
lines of the disassembly, each on the line whose number is the address.
-/

namespace WordMachine

namespace Hex

theorem allDigits_digits (width n : Nat) : AllDigits (digits width n) := by
  intro c hc
  obtain ⟨d, hd, rfl⟩ := mem_digits hc
  rw [value?_digit hd]
  rfl

/-- The last digit stands for what the others leave. -/
theorem number_digits_succ (width n : Nat) :
    number (digits (width + 1) n) = number (digits width (n / 16)) * 16 + n % 16 := by
  have hlast : (value? (digit (n % 16))).getD 0 = n % 16 := by
    rw [value?_digit (Nat.mod_lt n (by decide))]
    rfl
  simp only [number, digits, List.foldl_append, List.foldl_cons, List.foldl_nil, hlast]

/-- The four digits of a word stand for it. -/
theorem number_digits {n : Nat} (hn : n < addressSpace) : number (digits 4 n) = n := by
  have hnone (m : Nat) : number (digits 0 m) = 0 := rfl
  unfold addressSpace at hn
  simp only [number_digits_succ, hnone]
  omega

theorem size_le_four {n : Nat} (hn : n < addressSpace) : size n ≤ 4 := by
  by_cases hzero : n = 0
  · subst hzero
    decide
  · have hlog : n.log2 < 16 := (Nat.log2_lt hzero).mpr (by simpa [addressSpace] using hn)
    rw [size]
    omega

theorem toList_marked_word (word : Word) :
    (marked 4 word.toNat).toList = '0' :: 'x' :: digits 4 word.toNat := by
  have hwidth := Nat.max_eq_left (size_le_four word.toNat_lt_addressSpace)
  simp [marked, text, hwidth]

end Hex

namespace Listing

/-- A word on a line of its own. -/
def wordLine (word : Word) : List Char :=
  (Hex.marked 4 word.toNat).toList

/-- The entries on the lines of one instruction: the first line has the instruction's text behind
its word. -/
def annotated (line : Disassembly.Line) : Listing :=
  ⟨line.word, wordLine line.word ++ "   ; ".toList ++ line.text.toList⟩ ::
    line.following.map fun word => ⟨word, wordLine word⟩

/-- The comment on a line, behind a semicolon and a space. -/
def comment? (line : List Char) : Option (List Char) :=
  match line.dropWhile (· != ';') with
  | ';' :: ' ' :: comment => some comment
  | _ => none

theorem wordLine_eq (word : Word) : wordLine word = '0' :: 'x' :: Hex.digits 4 word.toNat :=
  Hex.toList_marked_word word

theorem phrase_wordLine (word : Word) : Phrase (wordLine word) :=
  .of_visible (Hex.visible_marked 4 word.toNat)

theorem toList_renderLine (line : Disassembly.Line) :
    (renderLine line).toList = (annotated line).flatMap (·.source ++ ['\n']) := by
  have hfollowing (words : List Word) :
      (String.join (words.map fun word => Hex.marked 4 word.toNat ++ "\n")).toList =
        (words.map fun word => (⟨word, wordLine word⟩ : ListingEntry)).flatMap
          (·.source ++ ['\n']) := by
    simp [String.toList_join, List.flatMap_map, wordLine]
  simp [renderLine, annotated, hfollowing, wordLine]

theorem not_endsToken_of_mem_wordLine {word : Word} {c : Char} (h : c ∈ wordLine word) :
    endsToken c = false := by
  have hdigits : ∀ k < 16, endsToken (Hex.digit k) = false := by decide
  rw [wordLine_eq, List.mem_cons, List.mem_cons] at h
  rcases h with rfl | rfl | h
  · decide
  · decide
  · obtain ⟨d, hd, rfl⟩ := Hex.mem_digits h
    exact hdigits d hd

theorem token_wordLine_append
    (word : Word) {rest : List Char} (hrest : ∀ c ∈ rest.head?, endsToken c = true) :
    token (wordLine word ++ rest) = wordLine word :=
  token_append (fun _ => not_endsToken_of_mem_wordLine) hrest

/-- A line that begins with a word holds it, whatever stands behind it after the end of the
token. -/
theorem holds_wordLine_append
    (word : Word) (rest : List Char) (hrest : ∀ c ∈ rest.head?, endsToken c = true)
    (hlast : ∀ c ∈ (wordLine word ++ rest).getLast?, Blank.contains c = false) :
    Holds (wordLine word ++ rest) ⟨word, wordLine word ++ rest⟩ := by
  have htrim : Blank.trim (wordLine word ++ rest) = wordLine word ++ rest := by
    refine Blank.trim_eq_self ?_ hlast
    intro c hc
    rw [wordLine_eq] at hc
    obtain rfl := Option.some.inj hc
    decide
  have hnumeral : Numeral (Hex.digits 4 word.toNat) word.toNat := by
    have hnumber := Hex.number_digits word.toNat_lt_addressSpace
    have hdenotes := Hex.denotes_iff.mpr ⟨Hex.allDigits_digits 4 word.toNat, hnumber.symm⟩
    exact .plain (by simp [Hex.digits]) hdenotes
  rw [holds_iff, htrim, token_wordLine_append word hrest, readNumber_eq_ok_iff, wordLine_eq]
  exact ⟨rfl, rfl, hnumeral⟩

theorem annotated_holds
    {line : Disassembly.Line} (hline : Phrase line.text.toList) :
    ∀ entry ∈ annotated line, Phrase entry.source ∧ Holds entry.source entry := by
  intro entry hentry
  rcases List.mem_cons.mp hentry with rfl | hentry
  · have hmark : Plain "   ; ".toList := by decide
    have hphrase := Phrase.append ((phrase_wordLine line.word).plain.append hmark) hline
    refine ⟨hphrase, ?_⟩
    have hlast := hphrase.not_contains_getLast?
    rw [List.append_assoc] at hlast ⊢
    refine holds_wordLine_append line.word _ (fun c hc => ?_) hlast
    obtain rfl := Option.some.inj hc
    decide
  · obtain ⟨word, -, rfl⟩ := List.mem_map.mp hentry
    have hphrase := phrase_wordLine word
    have hholds := holds_wordLine_append word [] (by simp)
    rw [List.append_nil] at hholds
    exact ⟨hphrase, hholds hphrase.not_contains_getLast?⟩

/-- The entries on the lines of a printed program. -/
def printed (words : List Word) : Listing :=
  (Disassembly.sweep 0 words).flatMap annotated

theorem printed_holds (words : List Word) :
    ∀ entry ∈ printed words, Phrase entry.source ∧ Holds entry.source entry := by
  intro entry hentry
  obtain ⟨line, hline, hentry⟩ := List.mem_flatMap.mp hentry
  exact annotated_holds (Disassembly.phrase_of_mem_sweep hline) entry hentry

theorem words_printed (words : List Word) : (printed words).words = words := by
  have hline (line : Disassembly.Line) : (annotated line).map ListingEntry.word = line.words := by
    simp [annotated, Disassembly.Line.words, Function.comp_def]
  rw [Listing.words, printed, List.map_flatMap]
  simp only [hline]
  exact Disassembly.flatMap_words_sweep 0 words

theorem split_render (words : List Word) :
    Lines.split (render words).toList = (printed words).map ListingEntry.source := by
  have htext : (render words).toList =
      ((printed words).map ListingEntry.source).flatMap (· ++ ['\n']) := by
    rw [render, String.toList_join, List.flatMap_map, List.flatMap_map, printed, List.flatMap_assoc]
    simp only [toList_renderLine]
  rw [htext]
  apply Lines.split_flatMap_feed
  intro source hsource
  obtain ⟨entry, hentry, rfl⟩ := List.mem_map.mp hsource
  have hphrase := (printed_holds words entry hentry).1
  exact ⟨hphrase.not_mem_feed, hphrase.getLast?_ne_return⟩

theorem reads_of_holds {listing : Listing} (h : ∀ entry ∈ listing, Holds entry.source entry) :
    Reads (listing.map ListingEntry.source) listing := by
  induction listing with
  | nil => exact .nil
  | cons entry listing ih =>
    obtain ⟨hentry, hlisting⟩ := List.forall_mem_cons.mp h
    exact .word hentry (ih hlisting)

/-- What is printed reads back, line by line. -/
theorem ofString_render_eq (words : List Word) :
    ofString (render words) = .ok (printed words) := by
  change readLines 1 (Lines.split (render words).toList) = _
  rw [split_render, readLines_eq_ok_iff]
  exact reads_of_holds fun entry hentry => (printed_holds words entry hentry).2

theorem ne_semicolon_of_mem_wordLine {word : Word} {c : Char} (h : c ∈ wordLine word) :
    (c != ';') = true := by
  rw [bne_iff_ne]
  rintro rfl
  have hends := not_endsToken_of_mem_wordLine h
  exact absurd hends (by decide)

theorem comment?_wordLine (word : Word) : comment? (wordLine word) = none := by
  have hdrop : (wordLine word).dropWhile (· != ';') = [] :=
    List.dropWhile_eq_nil_iff.mpr fun c => ne_semicolon_of_mem_wordLine
  rw [comment?, hdrop]

theorem comment?_wordLine_append (word : Word) (text : List Char) :
    comment? (wordLine word ++ "   ; ".toList ++ text) = some text := by
  have hdrop : (wordLine word ++ ("   ; ".toList ++ text)).dropWhile (· != ';') =
      ';' :: ' ' :: text := by
    rw [List.dropWhile_append_of_pos fun c => ne_semicolon_of_mem_wordLine]
    rfl
  simp only [comment?, List.append_assoc, hdrop]

/-- Of the lines of an instruction the first has the instruction's text as its comment, and the
others have none. -/
theorem comments_annotated (number : Nat) (line : Disassembly.Line) :
    (((annotated line).map ListingEntry.source).zipIdx number).filterMap
      (fun source => (comment? source.1).map fun text => (source.2, text)) =
        [(number, line.text.toList)] := by
  have hfollowing : ∀ source ∈ (line.following.map wordLine).zipIdx (number + 1),
      (comment? source.1).map (fun text => (source.2, text)) = none := by
    intro source hsource
    obtain ⟨word, -, hword⟩ := List.mem_map.mp (List.fst_mem_of_mem_zipIdx hsource)
    rw [← hword, comment?_wordLine]
    rfl
  simp only [annotated, List.map_cons, List.map_map, List.zipIdx_cons, List.filterMap_cons,
    comment?_wordLine_append, Option.map_some]
  exact congrArg _ (List.filterMap_eq_nil_iff.mpr hfollowing)

/-- The comments on the lines of a sweep, each with the number of its line, are the texts of its
instructions, each with its address. -/
theorem comments_sweep (address : Nat) (words : List Word) :
    ((((Disassembly.sweep address words).flatMap annotated).map ListingEntry.source).zipIdx
      address).filterMap (fun source => (comment? source.1).map fun text => (source.2, text)) =
        (Disassembly.sweep address words).map fun line => (line.address, line.text.toList) := by
  induction address, words using Disassembly.sweep_induction with
  | nil address =>
    rw [Disassembly.sweep]
    rfl
  | cons address word rest ih =>
    rw [Disassembly.sweep_cons, List.flatMap_cons, List.map_append, List.zipIdx_append,
      List.filterMap_append, comments_annotated, List.map_cons, List.singleton_append]
    congr 1
    by_cases hcut : rest.length ≤ (Instruction.decode word).length - 1
    · -- The last instruction may miss words of its own; nothing comes behind it.
      rw [List.drop_eq_nil_of_le hcut, Disassembly.sweep]
      rfl
    · have hpos := (Instruction.decode word).length_pos
      have hlength : 1 + min ((Instruction.decode word).length - 1) rest.length =
          (Instruction.decode word).length := by omega
      rw [← ih]
      simp only [annotated, List.length_map, List.length_cons, List.length_take,
        Nat.add_comm _ 1, hlength]

/-- A line of the disassembly, without its end. -/
def programLine (line : Nat × List Char) : List Char :=
  (Hex.text 4 line.1).toList ++ ": ".toList ++ line.2

theorem phrase_programLine (address : Nat) {text : List Char} (h : Phrase text) :
    Phrase (programLine (address, text)) := by
  have hcolon : Plain ": ".toList := by decide
  exact .append ((Hex.visible_text 4 address).plain.append hcolon) h

theorem toList_heading :
    "; Disassembly\n; -----------\n\n".toList =
      (["; Disassembly", "; -----------", ""].map String.toList).flatMap (· ++ ['\n']) := by
  decide +kernel

theorem toList_program (words : List Word) :
    (Disassembly.program words).toList =
      (["; Disassembly", "; -----------", ""].map String.toList ++
        (Disassembly.sweep 0 words).map fun line =>
          programLine (line.address, line.text.toList)).flatMap (· ++ ['\n']) := by
  have hline (line : Disassembly.Line) :
      line.render.toList = programLine (line.address, line.text.toList) ++ ['\n'] := by
    simp [Disassembly.Line.render, programLine]
  have hprogram : (Disassembly.program words).toList =
      "; Disassembly\n; -----------\n\n".toList ++
        (String.join ((Disassembly.sweep 0 words).map Disassembly.Line.render)).toList :=
    String.toList_append
  rw [hprogram, toList_heading, List.flatMap_append, String.toList_join]
  simp only [List.flatMap_map, hline]

theorem split_program (words : List Word) :
    Lines.split (Disassembly.program words).toList =
      ["; Disassembly", "; -----------", ""].map String.toList ++
        (Disassembly.sweep 0 words).map fun line =>
          programLine (line.address, line.text.toList) := by
  have hheading : ∀ line ∈ ["; Disassembly", "; -----------", ""].map String.toList,
      '\n' ∉ line ∧ line.getLast? ≠ some '\r' := by
    simp
  rw [toList_program]
  apply Lines.split_flatMap_feed
  intro line hline
  rcases List.mem_append.mp hline with hline | hline
  · exact hheading line hline
  · obtain ⟨entry, hentry, rfl⟩ := List.mem_map.mp hline
    have hphrase := phrase_programLine entry.address (Disassembly.phrase_of_mem_sweep hentry)
    exact ⟨hphrase.not_mem_feed, hphrase.getLast?_ne_return⟩

/-- A printed program has one line for each word, and reads back as the program, with these lines as
its source.  The disassembly has, behind its heading, one line for each line with a comment, in
their order: the number of the line, counted from zero, and the comment. -/
theorem ofString_render (words : List Word) :
    let lines := Lines.split (render words).toList
    (∃ listing, ofString (render words) = .ok listing ∧ listing.words = words ∧
      listing.sourceLines = lines.map String.ofList) ∧
    lines.length = words.length ∧
    Lines.split (Disassembly.program words).toList =
      ["; Disassembly", "; -----------", ""].map String.toList ++
        lines.zipIdx.filterMap fun line => (comment? line.1).map fun text =>
          programLine (line.2, text) := by
  intro lines
  have hlines : lines = (printed words).map ListingEntry.source := split_render words
  refine ⟨⟨printed words, ofString_render_eq words, words_printed words, ?_⟩, ?_, ?_⟩
  · rw [hlines, List.map_map]
    rfl
  · have hwords := congrArg List.length (words_printed words)
    rw [Listing.words, List.length_map] at hwords
    rw [hlines, List.length_map, hwords]
  · have hcomments := congrArg (List.map programLine) (comments_sweep 0 words)
    simp only [List.map_filterMap, Option.map_map, List.map_map] at hcomments
    rw [split_program, hlines]
    exact congrArg _ hcomments.symm

end Listing

end WordMachine
