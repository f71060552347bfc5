import WordMachine.Disassembly
import WordMachine.Proofs.Lines

/-!
# The texts of instructions

The text of an instruction depends on its own words only, and a sweep over a program gives back the
words that it went over.  Texts are phrases: they are made of visible characters with spaces between
them, so that they stay on the line that they are written to.
-/

namespace WordMachine

/-- Whether a character can be seen: neither a space nor a control character, and no character
beyond those of a typewriter. -/
def Seen (c : Char) : Prop :=
  0x20 < c.toNat ∧ c.toNat < 0x7f

instance : DecidablePred Seen :=
  fun c => inferInstanceAs (Decidable (0x20 < c.toNat ∧ c.toNat < 0x7f))

/-- Characters that can be seen, at least one of them. -/
def Visible (cs : List Char) : Prop :=
  cs ≠ [] ∧ ∀ c ∈ cs, Seen c

-- The quantifier ranges over the list here, and not over all characters that there are.
instance : DecidablePred Visible :=
  fun cs =>
    have : Decidable (∀ c ∈ cs, Seen c) := List.decidableBAll Seen cs
    inferInstanceAs (Decidable (cs ≠ [] ∧ ∀ c ∈ cs, Seen c))

/-- Spaces and characters that can be seen. -/
def Plain (cs : List Char) : Prop :=
  ∀ c ∈ cs, c = ' ' ∨ Seen c

instance : DecidablePred Plain :=
  List.decidableBAll fun c => c = ' ' ∨ Seen c

/-- Characters that can be seen with spaces before and between them. -/
structure Phrase (cs : List Char) : Prop where
  plain : Plain cs
  ends : ∃ c ∈ cs.getLast?, Seen c

theorem Seen.not_contains {c : Char} (h : Seen c) : Blank.contains c = false := by
  obtain ⟨hlow, hhigh⟩ := h
  simp only [Blank.contains, Blank.ranges, List.any_cons, List.any_nil, Bool.or_eq_false_iff,
    Bool.and_eq_false_iff, decide_eq_false_iff_not, and_true]
  omega

theorem Visible.append {front back : List Char} (hfront : Visible front) (hback : Visible back) :
    Visible (front ++ back) :=
  ⟨List.append_ne_nil_of_left_ne_nil hfront.1 back,
    fun c hc => (List.mem_append.mp hc).elim (hfront.2 c) (hback.2 c)⟩

theorem Visible.plain {cs : List Char} (h : Visible cs) : Plain cs :=
  fun c hc => .inr (h.2 c hc)

theorem Plain.append {front back : List Char} (hfront : Plain front) (hback : Plain back) :
    Plain (front ++ back) :=
  fun c hc => (List.mem_append.mp hc).elim (hfront c) (hback c)

namespace Phrase

variable {cs front : List Char}

theorem of_visible (h : Visible cs) : Phrase cs where
  plain := h.plain
  ends := ⟨cs.getLast h.1, List.getLast?_eq_some_getLast h.1, h.2 _ (List.getLast_mem h.1)⟩

theorem append (hfront : Plain front) (h : Phrase cs) : Phrase (front ++ cs) where
  plain := hfront.append h.plain
  ends := by
    obtain ⟨c, hc, hseen⟩ := h.ends
    refine ⟨c, ?_, hseen⟩
    rw [List.getLast?_append, Option.mem_def.mp hc]
    rfl

theorem not_mem_feed (h : Phrase cs) : '\n' ∉ cs := by
  intro hmem
  rcases h.plain _ hmem with heq | ⟨hlow, -⟩
  · contradiction
  · exact absurd hlow (by decide)

theorem not_contains_getLast? (h : Phrase cs) : ∀ c ∈ cs.getLast?, Blank.contains c = false := by
  obtain ⟨c, hc, hseen⟩ := h.ends
  intro other hother
  obtain rfl := Option.mem_unique hc hother
  exact hseen.not_contains

theorem getLast?_ne_return (h : Phrase cs) : cs.getLast? ≠ some '\r' := by
  intro hlast
  have hreturn := h.not_contains_getLast? '\r' hlast
  exact absurd hreturn (by decide)

end Phrase

namespace Hex

theorem seen_digits (width n : Nat) : ∀ c ∈ digits width n, Seen c := by
  intro c hc
  obtain ⟨d, hd, rfl⟩ := mem_digits hc
  have hall : ∀ k < 16, Seen (digit k) := by decide
  exact hall d hd

theorem visible_text (least n : Nat) : Visible (text least n).toList := by
  rw [text, String.toList_ofList]
  refine ⟨?_, seen_digits _ n⟩
  have hsize : 0 < size n := Nat.succ_pos _
  rw [← List.length_pos_iff, length_digits]
  omega

theorem visible_marked (least n : Nat) : Visible (marked least n).toList := by
  have hmark : Visible "0x".toList := by decide
  rw [marked, String.toList_append]
  exact hmark.append (visible_text least n)

end Hex

theorem Register.visible_name (r : Register) : Visible r.name.toList := by
  cases r <;> decide

theorem BasicOp.visible_mnemonic (op : BasicOp) : Visible op.mnemonic.toList := by
  cases op <;> decide

theorem visible_nextWordText (following : List Word) :
    Visible (nextWordText following).1.toList := by
  cases following with
  | nil => decide
  | cons word rest => exact Hex.visible_marked 4 word.toNat

/-- The text between brackets. -/
theorem Visible.bracketed {text : String} (h : Visible text.toList) :
    Visible ("[" ++ text ++ "]").toList := by
  have hopen : Visible "[".toList := by decide
  have hclose : Visible "]".toList := by decide
  rw [String.toList_append, String.toList_append]
  exact (hopen.append h).append hclose

namespace Operand

theorem visible_text (operand : Operand) (following : List Word) :
    Visible (operand.text following).1.toList := by
  cases operand with
  | register r => exact r.visible_name
  | indirect r => exact r.visible_name.bracketed
  | indexed r =>
    have hplus : Visible "+".toList := by decide
    have hsum := ((visible_nextWordText following).append hplus).append r.visible_name
    rw [← String.toList_append, ← String.toList_append] at hsum
    have htext : ((indexed r).text following).1 =
        "[" ++ ((nextWordText following).1 ++ "+" ++ r.name) ++ "]" := by
      simp only [text, String.append_assoc]
    rw [htext]
    exact hsum.bracketed
  | pop => exact (by decide : Visible "POP".toList)
  | peek => exact (by decide : Visible "PEEK".toList)
  | push => exact (by decide : Visible "PUSH".toList)
  | absolute => exact (visible_nextWordText following).bracketed
  | immediate => exact visible_nextWordText following
  | literal value => exact Hex.visible_marked 2 value.toNat

/-- An operand takes as many words from those that follow as it has of its own. -/
theorem text_snd (operand : Operand) (following : List Word) :
    (operand.text following).2 = following.drop ([operand].countP usesNextWord) := by
  cases operand <;> cases following <;> rfl

/-- An operand's text depends on no other words. -/
theorem text_take
    (operand : Operand) (following : List Word) {count : Nat}
    (h : [operand].countP usesNextWord ≤ count) :
    (operand.text (following.take count)).1 = (operand.text following).1 := by
  cases operand with
  | indexed r =>
    obtain ⟨count, rfl⟩ := Nat.exists_eq_add_of_le' h
    cases following <;> rfl
  | absolute =>
    obtain ⟨count, rfl⟩ := Nat.exists_eq_add_of_le' h
    cases following <;> rfl
  | immediate =>
    obtain ⟨count, rfl⟩ := Nat.exists_eq_add_of_le' h
    cases following <;> rfl
  | _ => rfl

end Operand

namespace Instruction

theorem length_pos (instruction : Instruction) : 0 < instruction.length :=
  Nat.lt_add_right _ Nat.one_pos

theorem length_le (instruction : Instruction) : instruction.length ≤ 3 := by
  have hcount := List.countP_le_length (p := Operand.usesNextWord) (l := instruction.operands)
  have hoperands : instruction.operands.length ≤ 2 := by
    cases instruction <;> simp [operands]
  rw [length]
  omega

theorem length_basic (op : BasicOp) (a b : Operand) :
    (basic op a b).length - 1 =
      [a].countP Operand.usesNextWord + [b].countP Operand.usesNextWord := by
  rw [length, operands, Nat.add_sub_cancel_left, ← List.countP_append, List.singleton_append]

theorem length_special (op : SpecialOp) (a : Operand) :
    (special op a).length - 1 = [a].countP Operand.usesNextWord := by
  rw [length, operands, Nat.add_sub_cancel_left]

/-- An instruction's text depends on its own words only. -/
theorem text_take (instruction : Instruction) (following : List Word) :
    instruction.text (following.take (instruction.length - 1)) = instruction.text following := by
  cases instruction with
  | basic op a b =>
    rw [length_basic]
    have htarget := a.text_take following (Nat.le_add_right _ ([b].countP Operand.usesNextWord))
    have hsource := b.text_take (following.drop ([a].countP Operand.usesNextWord)) (Nat.le_refl _)
    simp only [text, Operand.text_snd, htarget, List.drop_take, Nat.add_sub_cancel_left, hsource]
  | special op a =>
    rw [length_special]
    have hoperand := a.text_take following (Nat.le_refl _)
    cases op <;> simp only [text, hoperand]

theorem phrase_text (instruction : Instruction) (following : List Word) :
    Phrase (instruction.text following).toList := by
  have hcall : Plain "JSR ".toList := by decide
  have hunknown : Plain "??? ".toList := by decide
  have hspace : Plain " ".toList := by decide
  have hcomma : Plain ", ".toList := by decide
  cases instruction with
  | basic op a b =>
    simp only [text, String.toList_append, List.append_assoc]
    exact .append op.visible_mnemonic.plain <| .append hspace <|
      .append (a.visible_text _).plain <| .append hcomma <| .of_visible (b.visible_text _)
  | special op a =>
    cases op with
    | jsr =>
      simp only [text, String.toList_append]
      exact .append hcall (.of_visible (a.visible_text _))
    | reserved code =>
      simp only [text, String.toList_append, List.append_assoc]
      exact .append hunknown <| .append (Hex.visible_marked 2 code.toNat).plain <|
        .append hcomma <| .of_visible (a.visible_text _)

end Instruction

namespace Disassembly

theorem head_cons (word : Word) (following : List Word) :
    head (word :: following) =
      ((Instruction.decode word).text following, (Instruction.decode word).length) :=
  rfl

/-- What is shown of an instruction depends on its own words only. -/
theorem head_take (word : Word) (following : List Word) :
    head ((word :: following).take (Instruction.decode word).length) =
      head (word :: following) := by
  obtain ⟨own, hown⟩ := Nat.exists_eq_add_of_lt (Instruction.decode word).length_pos
  have hlength : (Instruction.decode word).length - 1 = own := by omega
  have htext := (Instruction.decode word).text_take following
  rw [hlength] at htext
  rw [hown, Nat.zero_add, List.take_succ_cons, head_cons, head_cons, htext]

theorem sweep_cons (address : Nat) (word : Word) (rest : List Word) :
    sweep address (word :: rest) =
      ⟨address, word, rest.take ((Instruction.decode word).length - 1),
          (Instruction.decode word).text rest⟩ ::
        sweep (address + (Instruction.decode word).length)
          (rest.drop ((Instruction.decode word).length - 1)) := by
  rw [sweep, head_cons]

/-- A sweep goes on behind the words of its first instruction. -/
@[elab_as_elim]
theorem sweep_induction
    {motive : Nat → List Word → Prop} (nil : ∀ address, motive address [])
    (cons : ∀ address word rest,
      motive (address + (Instruction.decode word).length)
        (rest.drop ((Instruction.decode word).length - 1)) →
      motive address (word :: rest))
    (address : Nat) (words : List Word) : motive address words := by
  induction hlength : words.length using Nat.strong_induction_on generalizing address words with
  | _ length ih =>
    cases words with
    | nil => exact nil address
    | cons word rest =>
      apply cons
      refine ih _ ?_ _ _ rfl
      rw [← hlength, List.length_drop, List.length_cons]
      omega

/-- The words of a line, its own word first. -/
def Line.words (line : Line) : List Word :=
  line.word :: line.following

/-- A sweep goes over every word once. -/
theorem flatMap_words_sweep (address : Nat) (words : List Word) :
    (sweep address words).flatMap Line.words = words := by
  induction address, words using sweep_induction with
  | nil address =>
    rw [sweep]
    rfl
  | cons address word rest ih =>
    rw [sweep_cons, List.flatMap_cons, ih, Line.words, List.cons_append, List.take_append_drop]

theorem phrase_of_mem_sweep
    {address : Nat} {words : List Word} {line : Line} (h : line ∈ sweep address words) :
    Phrase line.text.toList := by
  induction address, words using sweep_induction with
  | nil address =>
    rw [sweep] at h
    contradiction
  | cons address word rest ih =>
    rw [sweep_cons] at h
    rcases List.mem_cons.mp h with rfl | h
    · exact Instruction.phrase_text _ rest
    · exact ih h

end Disassembly

end WordMachine
