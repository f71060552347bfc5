import Mathlib.Data.List.Induction
import WordMachine.Listing
import WordMachine.Proofs.Lines

/-!
# The grammar of listings

What a listing is, line by line: a line is passed over or holds a word, and a text is a listing if
each of its lines is one or the other.  The reader accepts just these texts, with the words that
their lines hold, and names the first line that is neither otherwise.
-/

namespace WordMachine

namespace Hex

/-- The number that digits stand for, the highest of them first. -/
def number (digits : List Char) : Nat :=
  digits.foldl (fun n c => n * 16 + (value? c).getD 0) 0

/-- Whether every character is a digit, in either case. -/
def AllDigits (digits : List Char) : Prop :=
  ∀ c ∈ digits, (value? c).isSome = true

/-- The digits in both cases with the values that they stand for. -/
def digitValues : List (Char × Nat) :=
  [('0', 0), ('1', 1), ('2', 2), ('3', 3), ('4', 4), ('5', 5), ('6', 6), ('7', 7), ('8', 8),
  ('9', 9), ('a', 10), ('b', 11), ('c', 12), ('d', 13), ('e', 14), ('f', 15), ('A', 10), ('B', 11),
  ('C', 12), ('D', 13), ('E', 14), ('F', 15)]

/-- Digits and the number that they stand for, of which the last digit counts the ones. -/
inductive Denotes : List Char → Nat → Prop
  | nil : Denotes [] 0
  | snoc {digits : List Char} {n d : Nat} {c : Char} (h : Denotes digits n)
      (hdigit : (c, d) ∈ digitValues) : Denotes (digits ++ [c]) (16 * n + d)

theorem value?_eq_some_iff {c : Char} {d : Nat} : value? c = some d ↔ (c, d) ∈ digitValues := by
  constructor
  · intro h
    have hall : ∀ code < 103, ∀ d ∈ value? (Char.ofNat code),
        (Char.ofNat code, d) ∈ digitValues := by decide
    have hlt : c.toNat < 103 := by
      have hrange {first last : Char} (hc : first ≤ c ∧ c ≤ last) : c.toNat ≤ last.toNat := hc.2
      unfold value? at h
      split at h
      · rename_i hc
        exact Nat.lt_of_le_of_lt (hrange hc) (by decide)
      · split at h
        · rename_i hc
          exact Nat.lt_of_le_of_lt (hrange hc) (by decide)
        · split at h
          · rename_i hc
            exact Nat.lt_of_le_of_lt (hrange hc) (by decide)
          · contradiction
    have hc := hall c.toNat hlt
    rw [Char.ofNat_toNat] at hc
    exact hc d h
  · intro h
    have hall : ∀ digit ∈ digitValues, value? digit.1 = some digit.2 := by decide
    exact hall (c, d) h

theorem value?_lt {c : Char} {d : Nat} (h : value? c = some d) : d < 16 := by
  have hall : ∀ digit ∈ digitValues, digit.2 < 16 := by decide
  exact hall (c, d) (value?_eq_some_iff.mp h)

theorem number_snoc {digits : List Char} {c : Char} {d : Nat} (h : value? c = some d) :
    number (digits ++ [c]) = 16 * number digits + d := by
  rw [number, List.foldl_append, List.foldl_cons, List.foldl_nil, h, Option.getD_some,
    Nat.mul_comm]
  rfl

/-- Text that is all digits denotes the number that they stand for, and other text denotes none. -/
theorem denotes_iff {digits : List Char} {n : Nat} :
    Denotes digits n ↔ AllDigits digits ∧ n = number digits := by
  constructor
  · intro h
    induction h with
    | nil => exact ⟨nofun, rfl⟩
    | snoc h hdigit ih =>
      have hvalue := value?_eq_some_iff.mpr hdigit
      rw [number_snoc hvalue, ih.2]
      refine ⟨fun c hc => ?_, rfl⟩
      rcases List.mem_append.mp hc with hc | hc
      · exact ih.1 c hc
      · rw [List.mem_singleton.mp hc, hvalue]
        rfl
  · rintro ⟨hdigits, rfl⟩
    induction digits using List.reverseRecOn with
    | nil => exact .nil
    | append_singleton digits c ih =>
      obtain ⟨d, hvalue⟩ := Option.isSome_iff_exists.mp (hdigits c (by simp))
      rw [number_snoc hvalue]
      exact .snoc (ih fun c hc => hdigits c (List.mem_append_left _ hc))
        (value?_eq_some_iff.mp hvalue)

theorem le_foldl (digits : List Char) (n : Nat) :
    n ≤ digits.foldl (fun n c => n * 16 + (value? c).getD 0) n := by
  induction digits generalizing n with
  | nil => exact Nat.le_refl n
  | cons c digits ih =>
    have hstep := ih (n * 16 + (value? c).getD 0)
    rw [List.foldl_cons]
    omega

end Hex

namespace Listing

/-- A line without blanks at its ends that holds no word. -/
def Ignored (source : List Char) : Prop :=
  source = [] ∨ [';'] <+: source ∨ ['/', '/'] <+: source ∨ ['#'] <+: source

/-- A character that no token goes past. -/
def EndsToken (c : Char) : Prop :=
  c ∈ Blank.whiteSpace ∨ c = ';' ∨ c = ','

/-- The token of a line is its longest beginning without a character that ends a token. -/
structure IsToken (source token : List Char) : Prop where
  begins : token <+: source
  free : ∀ c ∈ token, ¬EndsToken c
  longest : ∀ other, other <+: source → (∀ c ∈ other, ¬EndsToken c) → other <+: token

/-- A token without the marker in front of it, if it has one. -/
inductive Unmarked : List Char → List Char → Prop
  | lower {numeral : List Char} : Unmarked ('0' :: 'x' :: numeral) numeral
  | upper {numeral : List Char} : Unmarked ('0' :: 'X' :: numeral) numeral
  | none {token : List Char} (hlower : ¬['0', 'x'] <+: token) (hupper : ¬['0', 'X'] <+: token) :
      Unmarked token token

/-- One digit or more, with a plus sign before them or without, and the number that they stand
for. -/
inductive Numeral : List Char → Nat → Prop
  | plain {digits : List Char} {n : Nat} (hne : digits ≠ []) (hdigits : Hex.Denotes digits n) :
      Numeral digits n
  | signed {digits : List Char} {n : Nat} (hne : digits ≠ []) (hdigits : Hex.Denotes digits n) :
      Numeral ('+' :: digits) n

/-- A line that is passed over. -/
def Passed (line : List Char) : Prop :=
  ∃ source, Blank.Trims line source ∧ Ignored source

/-- A line that holds a word, which stands in its token. -/
structure Holds (line : List Char) (entry : ListingEntry) : Prop where
  trims : Blank.Trims line entry.source
  counts : ¬Ignored entry.source
  word : ∃ token numeral,
    IsToken entry.source token ∧ Unmarked token numeral ∧ Numeral numeral entry.word.toNat

/-- A line that is not passed over and holds no word, with its token. -/
structure Faulty (line token : List Char) : Prop where
  token : ∃ source, Blank.Trims line source ∧ ¬Ignored source ∧ IsToken source token
  empty : ∀ entry, ¬Holds line entry

/-- The words that lines hold, when each line holds a word or is passed over. -/
inductive Reads : List (List Char) → Listing → Prop
  | nil : Reads [] []
  | pass {line : List Char} {lines : List (List Char)} {listing : Listing} (hline : Passed line)
      (h : Reads lines listing) : Reads (line :: lines) listing
  | word {line : List Char} {entry : ListingEntry} {lines : List (List Char)} {listing : Listing}
      (hline : Holds line entry) (h : Reads lines listing) :
      Reads (line :: lines) (entry :: listing)

theorem isIgnored_iff {source : List Char} : isIgnored source = true ↔ Ignored source := by
  constructor
  · intro h
    unfold isIgnored at h
    split at h
    · exact .inl rfl
    · exact .inr (.inl ⟨_, rfl⟩)
    · exact .inr (.inr (.inr ⟨_, rfl⟩))
    · exact .inr (.inr (.inl ⟨_, rfl⟩))
    · contradiction
  · rintro (rfl | ⟨rest, rfl⟩ | ⟨rest, rfl⟩ | ⟨rest, rfl⟩) <;> rfl

theorem endsToken_iff {c : Char} : endsToken c = true ↔ EndsToken c := by
  simp [endsToken, EndsToken, ← Blank.contains_iff, or_assoc]

theorem isToken_token (source : List Char) : IsToken source (token source) := by
  constructor
  · exact List.takeWhile_prefix _
  · intro c hc
    have hfree := List.mem_takeWhile_imp (p := fun c => !endsToken c) hc
    rw [← endsToken_iff, Bool.not_eq_true]
    simpa using hfree
  · rintro other ⟨rest, rfl⟩ hother
    have hfree : ∀ c ∈ other, (!endsToken c) = true := by
      simpa [← endsToken_iff] using hother
    rw [token, List.takeWhile_append_of_pos hfree]
    exact List.prefix_append other _

theorem isToken_iff {source cs : List Char} : IsToken source cs ↔ cs = token source := by
  constructor
  · intro h
    have hself := isToken_token source
    exact (hself.longest cs h.begins h.free).eq_of_length_le
      (h.longest _ hself.begins hself.free).length_le
  · rintro rfl
    exact isToken_token source

/-- A token goes to the first character that ends it. -/
theorem token_append
    {cs rest : List Char} (hcs : ∀ c ∈ cs, endsToken c = false)
    (hrest : ∀ c ∈ rest.head?, endsToken c = true) : token (cs ++ rest) = cs := by
  have hfree : ∀ c ∈ cs, (!endsToken c) = true := by simpa using hcs
  rw [token, List.takeWhile_append_of_pos hfree]
  cases rest with
  | nil => simp
  | cons c rest => simp [hrest c rfl]

theorem unmarked_iff {token numeral : List Char} :
    Unmarked token numeral ↔ numeral = dropMarker token := by
  constructor
  · intro h
    cases h with
    | lower | upper => rfl
    | none hlower hupper =>
      unfold dropMarker
      split
      · exact (hlower ⟨_, rfl⟩).elim
      · exact (hupper ⟨_, rfl⟩).elim
      · rfl
  · rintro rfl
    unfold dropMarker
    split
    · exact .lower
    · exact .upper
    · rename_i hlower hupper
      refine .none ?_ ?_
      · rintro ⟨rest, rfl⟩
        exact hlower rest rfl
      · rintro ⟨rest, rfl⟩
        exact hupper rest rfl

theorem readDigits_eq_ok_iff {n : Nat} (hn : n < addressSpace) {digits : List Char} {word : Word} :
    readDigits n digits = .ok word ↔
      Hex.AllDigits digits ∧
        word.toNat = digits.foldl (fun n c => n * 16 + (Hex.value? c).getD 0) n := by
  induction digits generalizing n with
  | nil =>
    have hn' : (UInt16.ofNat n).toNat = n := UInt16.toNat_ofNat_of_lt' hn
    rw [readDigits, Except.ok.injEq, ← UInt16.toNat_inj, hn', eq_comm]
    simp [Hex.AllDigits]
  | cons c digits ih =>
    rw [readDigits, Hex.AllDigits, List.forall_mem_cons, List.foldl_cons]
    cases hc : Hex.value? c with
    | none => simp
    | some d =>
      have hd := Hex.value?_lt hc
      simp only [Option.isSome_some, true_and, Option.getD_some]
      split
      · rename_i hlarge
        -- The digits to come can only make the number larger, and no word is that large.
        have hle := Hex.le_foldl digits (n * 16 + d)
        have hword := word.toNat_lt_addressSpace
        simp only [reduceCtorEq, false_iff, not_and]
        intro _ heq
        omega
      · rename_i hsmall
        have hnext : n * 16 + d < addressSpace := by
          unfold addressSpace at hsmall ⊢
          omega
        exact ih hnext

theorem readDigits_zero_eq_ok_iff {digits : List Char} {word : Word} :
    readDigits 0 digits = .ok word ↔ Hex.Denotes digits word.toNat := by
  rw [Hex.denotes_iff]
  exact readDigits_eq_ok_iff (by decide)

theorem readNumber_eq_ok_iff {cs : List Char} {word : Word} :
    readNumber cs = .ok word ↔ Numeral cs word.toNat := by
  have hplus {digits : List Char} {n : Nat} : ¬Hex.Denotes ('+' :: digits) n := fun h =>
    absurd ((Hex.denotes_iff.mp h).1 '+' List.mem_cons_self) (by decide)
  constructor
  · intro h
    unfold readNumber at h
    split at h
    · contradiction
    · contradiction
    · rename_i digits hne
      exact .signed (fun hnil => hne (by rw [hnil])) (readDigits_zero_eq_ok_iff.mp h)
    · rename_i hne _ _
      exact .plain hne (readDigits_zero_eq_ok_iff.mp h)
  · intro h
    generalize hn : word.toNat = n at h
    cases h with
    | plain hne hdigits =>
      have hread := readDigits_zero_eq_ok_iff.mpr (hn ▸ hdigits)
      unfold readNumber
      split
      · exact (hne rfl).elim
      · exact (hplus hdigits).elim
      · exact (hplus hdigits).elim
      · exact hread
    | @signed digits _ hne hdigits =>
      have hread := readDigits_zero_eq_ok_iff.mpr (hn ▸ hdigits)
      cases digits with
      | nil => exact (hne rfl).elim
      | cons c digits => exact hread

/-- A line is passed over if it is ignored. -/
theorem passed_iff {line : List Char} : Passed line ↔ isIgnored (Blank.trim line) = true := by
  rw [Passed, isIgnored_iff]
  simp only [Blank.trims_iff, exists_eq_left]

theorem holds_iff {line : List Char} {entry : ListingEntry} :
    Holds line entry ↔
      entry.source = Blank.trim line ∧ isIgnored (Blank.trim line) = false ∧
        readNumber (dropMarker (token (Blank.trim line))) = .ok entry.word := by
  rw [← Bool.not_eq_true, isIgnored_iff, readNumber_eq_ok_iff]
  constructor
  · rintro ⟨htrims, hcounts, token, numeral, htoken, hnumeral, hword⟩
    have hsource := Blank.trims_iff.mp htrims
    rw [isToken_iff.mp htoken] at hnumeral
    rw [unmarked_iff.mp hnumeral, hsource] at hword
    rw [hsource] at hcounts
    exact ⟨hsource, hcounts, hword⟩
  · rintro ⟨hsource, hcounts, hword⟩
    rw [← hsource] at hcounts hword
    exact ⟨Blank.trims_iff.mpr hsource, hcounts, _, _, isToken_token _, unmarked_iff.mpr rfl, hword⟩

theorem faulty_iff {line cs : List Char} :
    Faulty line cs ↔
      cs = token (Blank.trim line) ∧ isIgnored (Blank.trim line) = false ∧
        ∃ fault, readNumber (dropMarker (token (Blank.trim line))) = .error fault := by
  constructor
  · rintro ⟨⟨source, htrims, hcounts, htoken⟩, hempty⟩
    rw [Blank.trims_iff.mp htrims] at hcounts htoken
    rw [← isIgnored_iff, Bool.not_eq_true] at hcounts
    refine ⟨isToken_iff.mp htoken, hcounts, ?_⟩
    cases hread : readNumber (dropMarker (token (Blank.trim line))) with
    | ok word => exact (hempty ⟨word, Blank.trim line⟩ (holds_iff.mpr ⟨rfl, hcounts, hread⟩)).elim
    | error fault => exact ⟨fault, rfl⟩
  · rintro ⟨htoken, hcounts, fault, hread⟩
    constructor
    · refine ⟨Blank.trim line, Blank.trims_trim line, ?_, isToken_iff.mpr htoken⟩
      rw [← isIgnored_iff, hcounts]
      exact Bool.false_ne_true
    · intro entry hholds
      rw [(holds_iff.mp hholds).2.2] at hread
      contradiction

theorem passed_or_holds_or_faulty (line : List Char) :
    Passed line ∨ (∃ entry, Holds line entry) ∨ ∃ token, Faulty line token := by
  cases hignored : isIgnored (Blank.trim line) with
  | true => exact .inl (passed_iff.mpr hignored)
  | false =>
    cases hread : readNumber (dropMarker (token (Blank.trim line))) with
    | ok word =>
      exact .inr (.inl ⟨⟨word, Blank.trim line⟩, holds_iff.mpr ⟨rfl, hignored, hread⟩⟩)
    | error fault => exact .inr (.inr ⟨_, faulty_iff.mpr ⟨rfl, hignored, fault, hread⟩⟩)

theorem Passed.readLine_eq {line : List Char} (h : Passed line) (number : Nat) :
    readLine (line, number) = .ok none := by
  simp [readLine, passed_iff.mp h]

theorem Holds.readLine_eq
    {line : List Char} {entry : ListingEntry} (h : Holds line entry) (number : Nat) :
    readLine (line, number) = .ok (some entry) := by
  obtain ⟨hsource, hcounts, hread⟩ := holds_iff.mp h
  rw [← hsource] at hcounts hread
  simp [readLine, ← hsource, hcounts, hread]

theorem Faulty.readLine_eq
    {line token : List Char} (h : Faulty line token) (number : Nat) :
    ∃ fault, readLine (line, number) = .error (.invalidWord number token fault) := by
  obtain ⟨htoken, hcounts, fault, hread⟩ := faulty_iff.mp h
  exact ⟨fault, by simp [readLine, hcounts, hread, htoken]⟩

/-- The reader on lines of which the first has the given number. -/
def readLines (number : Nat) (lines : List (List Char)) : Except ListingFault Listing := do
  let entries ← (lines.zipIdx number).mapM readLine
  return entries.filterMap id

theorem readLines_cons_ok
    {number : Nat} {line : List Char} {entry : Option ListingEntry}
    (h : readLine (line, number) = .ok entry) (lines : List (List Char)) :
    readLines number (line :: lines) =
      (readLines (number + 1) lines).map (entry.toList ++ ·) := by
  simp only [readLines, List.zipIdx_cons, List.mapM_cons, h]
  cases (lines.zipIdx (number + 1)).mapM readLine with
  | error fault => rfl
  | ok entries => cases entry <;> rfl

theorem readLines_cons_error
    {number : Nat} {line : List Char} {fault : ListingFault}
    (h : readLine (line, number) = .error fault) (lines : List (List Char)) :
    readLines number (line :: lines) = .error fault := by
  simp only [readLines, List.zipIdx_cons, List.mapM_cons, h]
  rfl

/-- Behind lines that can be read the reader goes on with their words and the number of the next
line. -/
theorem Reads.readLines_append
    {before : List (List Char)} {listing : Listing} (h : Reads before listing)
    (after : List (List Char)) (number : Nat) :
    readLines number (before ++ after) =
      (readLines (number + before.length) after).map (listing ++ ·) := by
  induction h generalizing number with
  | nil => cases hafter : readLines number after <;> simp [hafter, Except.map]
  | @pass line before listing hline h ih =>
    rw [List.cons_append, readLines_cons_ok (hline.readLine_eq number), ih, List.length_cons,
      Nat.add_right_comm]
    cases readLines (number + before.length + 1) after <;> rfl
  | @word line entry before listing hline h ih =>
    rw [List.cons_append, readLines_cons_ok (hline.readLine_eq number), ih, List.length_cons,
      Nat.add_right_comm]
    cases readLines (number + before.length + 1) after <;> rfl

theorem Reads.readLines_eq
    {lines : List (List Char)} {listing : Listing} (h : Reads lines listing) (number : Nat) :
    readLines number lines = .ok listing := by
  have hread := h.readLines_append [] number
  rw [List.append_nil] at hread
  rw [hread]
  exact congrArg Except.ok (List.append_nil listing)

/-- The line with the given number is the first that is faulty, and has the given token. -/
def FailsAt (lines : List (List Char)) (number : Nat) (token : List Char) : Prop :=
  ∃ before line after, lines = before ++ line :: after ∧ number = before.length + 1 ∧
    (∃ listing, Reads before listing) ∧ Faulty line token

theorem FailsAt.readLines_eq
    {lines : List (List Char)} {number : Nat} {token : List Char}
    (h : FailsAt lines number token) :
    ∃ fault, readLines 1 lines = .error (.invalidWord number token fault) := by
  obtain ⟨before, line, after, rfl, rfl, ⟨listing, hbefore⟩, hline⟩ := h
  obtain ⟨fault, hfault⟩ := hline.readLine_eq (before.length + 1)
  refine ⟨fault, ?_⟩
  rw [hbefore.readLines_append, Nat.add_comm 1, readLines_cons_error hfault]
  rfl

theorem Reads.cons
    {lines : List (List Char)} {listing : Listing} (h : Reads lines listing) {line : List Char}
    (hline : Passed line ∨ ∃ entry, Holds line entry) :
    ∃ listing', Reads (line :: lines) listing' := by
  rcases hline with hpassed | ⟨entry, hholds⟩
  · exact ⟨listing, .pass hpassed h⟩
  · exact ⟨entry :: listing, .word hholds h⟩

theorem FailsAt.cons
    {lines : List (List Char)} {number : Nat} {token : List Char} (h : FailsAt lines number token)
    {line : List Char} (hline : Passed line ∨ ∃ entry, Holds line entry) :
    FailsAt (line :: lines) (number + 1) token := by
  obtain ⟨before, faulty, after, rfl, rfl, ⟨listing, hbefore⟩, hfaulty⟩ := h
  exact ⟨line :: before, faulty, after, rfl, rfl, hbefore.cons hline, hfaulty⟩

/-- Lines that cannot all be read have a first one that cannot. -/
theorem reads_or_failsAt (lines : List (List Char)) :
    (∃ listing, Reads lines listing) ∨ ∃ number token, FailsAt lines number token := by
  induction lines with
  | nil => exact .inl ⟨[], .nil⟩
  | cons line lines ih =>
    rcases or_assoc.mpr (passed_or_holds_or_faulty line) with hline | ⟨token, hfaulty⟩
    · rcases ih with ⟨listing, hreads⟩ | ⟨number, token, hfails⟩
      · exact .inl (hreads.cons hline)
      · exact .inr ⟨number + 1, token, hfails.cons hline⟩
    · exact .inr ⟨1, token, [], line, lines, rfl, rfl, ⟨[], .nil⟩, hfaulty⟩

theorem readLines_eq_ok_iff {lines : List (List Char)} {listing : Listing} :
    readLines 1 lines = .ok listing ↔ Reads lines listing := by
  refine ⟨fun h => ?_, fun h => h.readLines_eq 1⟩
  rcases reads_or_failsAt lines with ⟨entries, hreads⟩ | ⟨number, token, hfails⟩
  · rw [hreads.readLines_eq 1] at h
    obtain rfl := Except.ok.inj h
    exact hreads
  · obtain ⟨fault, hfault⟩ := hfails.readLines_eq
    rw [hfault] at h
    contradiction

theorem readLines_eq_error_iff {lines : List (List Char)} {number : Nat} {token : List Char} :
    (∃ fault, readLines 1 lines = .error (.invalidWord number token fault)) ↔
      FailsAt lines number token := by
  refine ⟨?_, FailsAt.readLines_eq⟩
  rintro ⟨fault, h⟩
  rcases reads_or_failsAt lines with ⟨entries, hreads⟩ | ⟨number', token', hfails⟩
  · rw [hreads.readLines_eq 1] at h
    contradiction
  · obtain ⟨fault', hfault⟩ := hfails.readLines_eq
    rw [hfault] at h
    injection h with h
    injection h with hnumber htoken
    rw [← hnumber, ← htoken]
    exact hfails

/-- The reader accepts a text just when each of its lines is passed over or holds a word, and gives
the words with their lines.  Otherwise it names the first line that is neither, by its number among
all lines and by its token, whatever follows. -/
theorem ofString_grammar (text : String) :
    (∀ listing, ofString text = .ok listing ↔
      ∃ lines, Lines.Splits text.toList lines ∧ Reads lines listing) ∧
    (∀ number token,
      (∃ fault, ofString text = .error (.invalidWord number token fault)) ↔
        ∃ lines, Lines.Splits text.toList lines ∧ FailsAt lines number token) ∧
    ((∃ listing, ofString text = .ok listing) ∨
      ∃ number token fault, ofString text = .error (.invalidWord number token fault)) := by
  have hread : ofString text = readLines 1 (Lines.split text.toList) := rfl
  simp only [Lines.splits_iff, exists_eq_left, hread]
  refine ⟨fun listing => readLines_eq_ok_iff, fun number token => readLines_eq_error_iff, ?_⟩
  rcases reads_or_failsAt (Lines.split text.toList) with ⟨listing, h⟩ | ⟨number, token, h⟩
  · exact .inl ⟨listing, h.readLines_eq 1⟩
  · exact .inr ⟨number, token, h.readLines_eq⟩

/-- Digits of both cases, a sign and zeros in front are read; a number of five digits is not, and it
is the third line that is refused. -/
theorem ofString_grammar_numerals :
    (∃ lines, Lines.Splits "\t0XaBc , x\r\n# 1\n+0000fF".toList lines ∧
      Reads lines [⟨0xabc, "0XaBc , x".toList⟩, ⟨0xff, "+0000fF".toList⟩]) ∧
    ∃ lines, Lines.Splits "\n1\n10000\n2".toList lines ∧ FailsAt lines 3 "10000".toList :=
  ⟨((ofString_grammar _).1 _).mp rfl, ((ofString_grammar _).2.1 3 _).mp ⟨.tooLarge, rfl⟩⟩

end Listing

end WordMachine
