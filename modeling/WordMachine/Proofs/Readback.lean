import WordMachine.Proofs.Annotation
import WordMachine.Proofs.Codes

/-!
# Instructions read back from their text

The text of an instruction says all that there is to say about its words.  `Written` gives the form
of the text for an instruction with the words of its own, those of the target first, and a reader
gets both back from it.  So two instructions that are shown alike are the same, word for word.
-/

namespace WordMachine

namespace Hex

theorem not_mem_digits {c : Char} (h : value? c = none) (width n : Nat) : c ∉ digits width n := by
  intro hmem
  obtain ⟨d, hd, rfl⟩ := mem_digits hmem
  rw [value?_digit hd] at h
  contradiction

/-- The two digits of a byte stand for it. -/
theorem number_digits_byte {n : Nat} (hn : n < 256) : number (digits 2 n) = n := by
  have hnone (m : Nat) : number (digits 0 m) = 0 := rfl
  simp only [number_digits_succ, hnone]
  omega

theorem size_le_two {n : Nat} (hn : n < 256) : size n ≤ 2 := by
  have hall : ∀ k < 256, size k ≤ 2 := by decide +kernel
  exact hall n hn

theorem toList_marked_byte (byte : UInt8) :
    (marked 2 byte.toNat).toList = '0' :: 'x' :: digits 2 byte.toNat := by
  have hwidth := Nat.max_eq_left (size_le_two byte.toNat_lt)
  simp [marked, text, hwidth]

theorem ofNat_number_word (word : Word) :
    UInt16.ofNat (number (digits 4 word.toNat)) = word := by
  rw [number_digits word.toNat_lt_addressSpace, UInt16.ofNat_toNat]

theorem ofNat_number_byte (byte : UInt8) :
    UInt8.ofNat (number (digits 2 byte.toNat)) = byte := by
  rw [number_digits_byte byte.toNat_lt, UInt8.ofNat_toNat]

end Hex

namespace Register

/-- The register with a given name. -/
def ofName? (name : List Char) : Option Register :=
  all.find? fun r => r.name.toList == name

theorem ofName?_name (r : Register) : ofName? r.name.toList = some r := by
  cases r <;> decide

end Register

namespace Operand

/-- How an operand is written with the words of its own. -/
inductive Written : Operand → List Word → String → Prop
  | register (r : Register) : Written (register r) [] r.name
  | indirect (r : Register) : Written (indirect r) [] ("[" ++ r.name ++ "]")
  | indexed (r : Register) (base : Word) :
      Written (indexed r) [base] ("[" ++ Hex.marked 4 base.toNat ++ "+" ++ r.name ++ "]")
  | pop : Written pop [] "POP"
  | peek : Written peek [] "PEEK"
  | push : Written push [] "PUSH"
  | absolute (address : Word) :
      Written absolute [address] ("[" ++ Hex.marked 4 address.toNat ++ "]")
  | immediate (value : Word) : Written immediate [value] (Hex.marked 4 value.toNat)
  | literal (value : UInt8) : Written (literal value) [] (Hex.marked 2 value.toNat)

/-- Reads what stands between brackets: a word in four digits, with a register behind it or not, or
a register. -/
def ofBracketed? : List Char → Option (Operand × List Word)
  | '0' :: 'x' :: rest =>
    let own := [UInt16.ofNat (Hex.number (rest.take 4))]
    match rest.drop 4 with
    | [] => some (absolute, own)
    | _ :: name => (Register.ofName? name).map fun r => (indexed r, own)
  | name => (Register.ofName? name).map fun r => (indirect r, [])

/-- The operand with a name of its own. -/
def ofName? (name : List Char) : Option Operand :=
  (Register.all.map register ++ [pop, peek, push]).find? fun operand =>
    (operand.text []).1.toList == name

/-- Reads an operand with its own words.  A literal has two digits where a word has four. -/
def ofText? : List Char → Option (Operand × List Word)
  | '[' :: bracketed => ofBracketed? bracketed.dropLast
  | '0' :: 'x' :: digits =>
    if digits.length = 2 then some (literal (UInt8.ofNat (Hex.number digits)), [])
    else some (immediate, [UInt16.ofNat (Hex.number digits)])
  | name => (ofName? name).map fun operand => (operand, [])

theorem ofText?_bracketed (inner : String) :
    ofText? ("[" ++ inner ++ "]").toList = ofBracketed? inner.toList := by
  have hclose : (inner.toList ++ [']']).dropLast = inner.toList := List.dropLast_concat
  have htext : ("[" ++ inner ++ "]").toList = '[' :: (inner.toList ++ [']']) := by simp
  rw [htext, ofText?, hclose]

theorem Written.ofText?_eq
    {operand : Operand} {own : List Word} {text : String} (h : operand.Written own text) :
    ofText? text.toList = some (operand, own) := by
  cases h with
  | register r => cases r <;> decide
  | indirect r =>
    rw [ofText?_bracketed]
    cases r <;> decide
  | indexed r base =>
    have htext : "[" ++ Hex.marked 4 base.toNat ++ "+" ++ r.name ++ "]" =
        "[" ++ (Hex.marked 4 base.toNat ++ "+" ++ r.name) ++ "]" := by
      simp only [String.append_assoc]
    have hinner : (Hex.marked 4 base.toNat ++ "+" ++ r.name).toList =
        '0' :: 'x' :: (Hex.digits 4 base.toNat ++ '+' :: r.name.toList) := by
      simp [Hex.toList_marked_word]
    have hdigits := Hex.length_digits 4 base.toNat
    rw [htext, ofText?_bracketed, hinner, ofBracketed?, List.take_left' hdigits,
      List.drop_left' hdigits, Hex.ofNat_number_word]
    simp only [Register.ofName?_name, Option.map_some]
  | pop => decide
  | peek => decide
  | push => decide
  | absolute address =>
    have hdigits := Hex.length_digits 4 address.toNat
    rw [ofText?_bracketed, Hex.toList_marked_word, ofBracketed?,
      List.take_of_length_le (Nat.le_of_eq hdigits),
      List.drop_of_length_le (Nat.le_of_eq hdigits), Hex.ofNat_number_word]
  | immediate value =>
    have hlong : ¬(Hex.digits 4 value.toNat).length = 2 := by simp
    rw [Hex.toList_marked_word, ofText?, if_neg hlong, Hex.ofNat_number_word]
  | literal value =>
    rw [Hex.toList_marked_byte, ofText?, if_pos (Hex.length_digits 2 _), Hex.ofNat_number_byte]

/-- No comma stands in the text of an operand. -/
theorem Written.not_mem_comma
    {operand : Operand} {own : List Word} {text : String} (h : operand.Written own text) :
    ',' ∉ text.toList := by
  have hdigits := Hex.not_mem_digits (by decide : Hex.value? ',' = none)
  have hname (r : Register) : ',' ∉ r.name.toList := by cases r <;> decide
  cases h <;> simp [Hex.toList_marked_word, Hex.toList_marked_byte, hdigits, hname]

/-- An operand whose own word is there is written with it. -/
theorem written_text
    (operand : Operand) {following : List Word}
    (h : [operand].countP usesNextWord ≤ following.length) :
    operand.Written (following.take ([operand].countP usesNextWord))
      (operand.text following).1 := by
  have hword (hone : 1 ≤ following.length) : ∃ word, following.take 1 = [word] ∧
      nextWordText following = (Hex.marked 4 word.toNat, following.drop 1) := by
    cases following with
    | nil => contradiction
    | cons word rest => exact ⟨word, rfl, rfl⟩
  cases operand with
  | register r => exact .register r
  | indirect r => exact .indirect r
  | indexed r =>
    obtain ⟨word, htake, htext⟩ := hword h
    change Written _ (following.take 1) _
    simp only [text, htake, htext]
    exact .indexed r word
  | pop => exact .pop
  | peek => exact .peek
  | push => exact .push
  | absolute =>
    obtain ⟨word, htake, htext⟩ := hword h
    change Written _ (following.take 1) _
    simp only [text, htake, htext]
    exact .absolute word
  | immediate =>
    obtain ⟨word, htake, htext⟩ := hword h
    change Written _ (following.take 1) _
    simp only [text, htake, htext]
    exact .immediate word
  | literal value => exact .literal value

end Operand

namespace BasicOp

/-- The opcode with a given mnemonic. -/
def ofMnemonic? (mnemonic : List Char) : Option BasicOp :=
  all.find? fun op => op.mnemonic.toList == mnemonic

theorem ofMnemonic?_mnemonic (op : BasicOp) : ofMnemonic? op.mnemonic.toList = some op := by
  cases op <;> decide

theorem length_mnemonic (op : BasicOp) : op.mnemonic.toList.length = 3 := by
  cases op <;> rfl

end BasicOp

namespace Instruction

/-- How an instruction is written with the words of its own, of which those of the target come
before those of the source. -/
inductive Written : Instruction → List Word → String → Prop
  | basic {op : BasicOp} {a b : Operand} {own own' : List Word} {target source : String}
      (ha : a.Written own target) (hb : b.Written own' source) :
      Written (basic op a b) (own ++ own') (op.mnemonic ++ " " ++ target ++ ", " ++ source)
  | call {a : Operand} {own : List Word} {destination : String}
      (ha : a.Written own destination) : Written (special .jsr a) own ("JSR " ++ destination)
  | reserved {code : UInt8} {a : Operand} {own : List Word} {operand : String}
      (ha : a.Written own operand) :
      Written (special (.reserved code) a) own
        ("??? " ++ Hex.marked 2 code.toNat ++ ", " ++ operand)

/-- The texts before and behind the first comma, where a space follows on the comma. -/
def cutAtComma (text : List Char) : List Char × List Char :=
  (text.takeWhile (· != ','), (text.dropWhile (· != ',')).drop 2)

/-- Reads an instruction with its own words: three characters and a space, and then one operand or
two. -/
def ofText? (text : List Char) : Option (Instruction × List Word) :=
  let mnemonic := text.take 3
  let operands := text.drop 4
  let (target, source) := cutAtComma operands
  if mnemonic = ['J', 'S', 'R'] then do
    let (a, own) ← Operand.ofText? operands
    return (special .jsr a, own)
  else if mnemonic = ['?', '?', '?'] then do
    let (a, own) ← Operand.ofText? source
    return (special (.reserved (UInt8.ofNat (Hex.number (target.drop 2)))) a, own)
  else do
    let op ← BasicOp.ofMnemonic? mnemonic
    let (a, own) ← Operand.ofText? target
    let (b, own') ← Operand.ofText? source
    return (basic op a b, own ++ own')

theorem cutAtComma_append {target : List Char} (h : ',' ∉ target) (source : List Char) :
    cutAtComma (target ++ ',' :: ' ' :: source) = (target, source) := by
  have hfree : ∀ c ∈ target, (c != ',') = true := by
    intro c hc
    rw [bne_iff_ne]
    rintro rfl
    exact h hc
  rw [cutAtComma, List.takeWhile_append_of_pos hfree, List.dropWhile_append_of_pos hfree]
  simp

/-- The text of an instruction reads back as the instruction and its own words. -/
theorem Written.ofText?_eq
    {instruction : Instruction} {own : List Word} {text : String}
    (h : instruction.Written own text) : ofText? text.toList = some (instruction, own) := by
  cases h with
  | @basic op a b own own' target source ha hb =>
    have hmnemonic := op.length_mnemonic
    have hoperands := cutAtComma_append ha.not_mem_comma source.toList
    have htext : (op.mnemonic ++ " " ++ target ++ ", " ++ source).toList =
        op.mnemonic.toList ++ ' ' :: (target.toList ++ ',' :: ' ' :: source.toList) := by
      simp
    have hcall : op.mnemonic.toList ≠ ['J', 'S', 'R'] := by cases op <;> decide
    have hreserved : op.mnemonic.toList ≠ ['?', '?', '?'] := by cases op <;> decide
    have hdrop : (op.mnemonic.toList ++
        ' ' :: (target.toList ++ ',' :: ' ' :: source.toList)).drop 4 =
          target.toList ++ ',' :: ' ' :: source.toList := by
      rw [← List.singleton_append, ← List.append_assoc, List.drop_left' (by simp [hmnemonic])]
    simp only [ofText?, htext, List.take_left' hmnemonic, hdrop, hoperands, if_neg hcall,
      if_neg hreserved, op.ofMnemonic?_mnemonic, ha.ofText?_eq, hb.ofText?_eq]
    rfl
  | @call a own destination ha =>
    have htext : ("JSR " ++ destination).toList =
        'J' :: 'S' :: 'R' :: ' ' :: destination.toList := by
      simp
    simp only [ofText?, htext, List.take_succ_cons, List.take_zero, List.drop_succ_cons,
      List.drop_zero, ha.ofText?_eq]
    rfl
  | @reserved code a own operand ha =>
    have hdigits := Hex.not_mem_digits (by decide : Hex.value? ',' = none) 2 code.toNat
    have hcomma : ',' ∉ '0' :: 'x' :: Hex.digits 2 code.toNat := by simp [hdigits]
    have htext : ("??? " ++ Hex.marked 2 code.toNat ++ ", " ++ operand).toList =
        '?' :: '?' :: '?' :: ' ' ::
          ('0' :: 'x' :: Hex.digits 2 code.toNat ++ ',' :: ' ' :: operand.toList) := by
      simp [Hex.toList_marked_byte]
    simp only [ofText?, htext, List.take_succ_cons, List.take_zero, List.drop_succ_cons,
      List.drop_zero, cutAtComma_append hcomma, ha.ofText?_eq, Hex.ofNat_number_byte]
    rfl

/-- No two instructions are written alike. -/
theorem Written.unique
    {first second : Instruction} {own own' : List Word} {text : String}
    (h : first.Written own text) (h' : second.Written own' text) :
    first = second ∧ own = own' := by
  have hread := h.ofText?_eq
  rw [h'.ofText?_eq, Option.some_inj, Prod.mk.injEq] at hread
  exact ⟨hread.1.symm, hread.2.symm⟩

/-- An instruction whose own words are there is written with them. -/
theorem written_text
    (instruction : Instruction) {following : List Word}
    (h : instruction.length - 1 ≤ following.length) :
    instruction.Written (following.take (instruction.length - 1))
      (instruction.text following) := by
  cases instruction with
  | basic op a b =>
    rw [length_basic] at h ⊢
    have htarget : [a].countP Operand.usesNextWord ≤ following.length := by omega
    have hsource : [b].countP Operand.usesNextWord ≤
        (following.drop ([a].countP Operand.usesNextWord)).length := by
      rw [List.length_drop]
      omega
    rw [List.take_add]
    simp only [text, Operand.text_snd]
    exact .basic (a.written_text htarget) (b.written_text hsource)
  | special op a =>
    rw [length_special] at h ⊢
    cases op with
    | jsr => exact .call (a.written_text h)
    | reserved code => exact .reserved (a.written_text h)

end Instruction

namespace Disassembly

/-- All words of the instruction at an index are there. -/
def Complete (words : List Word) (index : Nat) : Prop :=
  index + (head (words.drop index)).2 ≤ words.length

instance (words : List Word) (index : Nat) : Decidable (Complete words index) :=
  inferInstanceAs (Decidable (_ ≤ _))

/-- The text of a complete instruction is written with its own words, which follow on the word that
it is decoded from. -/
theorem Complete.written {words : List Word} {index : Nat} (h : Complete words index) :
    ∃ (instruction : Instruction) (own : List Word),
      instruction.Written own (head (words.drop index)).1 ∧
      (head (words.drop index)).2 = instruction.length ∧
      (words.drop index).take instruction.length = instruction.encode :: own := by
  rw [Complete] at h
  cases hrest : words.drop index with
  | nil =>
    have hlength := congrArg List.length hrest
    rw [hrest, head] at h
    simp only [List.length_drop, List.length_nil] at hlength
    omega
  | cons word following =>
    have hlength := congrArg List.length hrest
    have hpos := (Instruction.decode word).length_pos
    rw [hrest, head_cons] at h
    simp only [List.length_drop, List.length_cons] at hlength h
    rw [head_cons]
    refine ⟨_, _, (Instruction.decode word).written_text (by omega), rfl, ?_⟩
    rw [Instruction.encode_decode, ← Nat.sub_add_cancel hpos, List.take_succ_cons,
      Nat.add_sub_cancel]

/-- What is shown of a complete instruction says all about its words: where the same text is shown,
there are as many words, and the same ones.  The words of the operands are written into the text in
their order, those of the target first. -/
theorem words_eq_of_text_eq
    {first second : List Word} {i j : Nat} (hfirst : Complete first i)
    (hsecond : Complete second j)
    (htext : (head (first.drop i)).1 = (head (second.drop j)).1) :
    (head (first.drop i)).2 = (head (second.drop j)).2 ∧
    (first.drop i).take (head (first.drop i)).2 =
      (second.drop j).take (head (second.drop j)).2 ∧
    ∃ (instruction : Instruction) (own : List Word),
      (first.drop i).take (head (first.drop i)).2 = instruction.encode :: own ∧
      instruction.Written own (head (first.drop i)).1 := by
  obtain ⟨instruction, own, hwritten, hlength, hwords⟩ := hfirst.written
  obtain ⟨instruction', own', hwritten', hlength', hwords'⟩ := hsecond.written
  rw [← htext] at hwritten'
  obtain ⟨rfl, rfl⟩ := hwritten.unique hwritten'
  rw [hlength, hlength', hwords, hwords']
  exact ⟨rfl, rfl, instruction, own, rfl, hwritten⟩

/-- A small literal and a word of the same value are told apart by their digits. -/
example : (head [0x9401]).1 = "SET A, 0x05" ∧ (head [0x7c01, 5]).1 = "SET A, 0x0005" := by
  decide +kernel

/-- An instruction of three words, behind another word and before another word. -/
theorem words_eq_of_text_eq_apart :
    let first : List Word := [0x9401, 0x7de1, 0x1000, 0x0020]
    let second : List Word := [0x7de1, 0x1000, 0x0020, 0x9401]
    Complete first 1 ∧ Complete second 0 ∧
      (head (first.drop 1)).1 = "SET [0x1000], 0x0020" ∧
      (first.drop 1).take (head (first.drop 1)).2 =
        (second.drop 0).take (head (second.drop 0)).2 := by
  intro first second
  have hfirst : Complete first 1 := by decide
  have hsecond : Complete second 0 := by decide
  have htext : (head (first.drop 1)).1 = (head (second.drop 0)).1 := by decide +kernel
  have hshown : (head (first.drop 1)).1 = "SET [0x1000], 0x0020" := by decide +kernel
  exact ⟨hfirst, hsecond, hshown, (words_eq_of_text_eq hfirst hsecond htext).2.1⟩

end Disassembly

end WordMachine
