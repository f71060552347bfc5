import Mathlib.Data.List.Infix
import WordMachine.Listing
import WordMachine.Proofs.Codes
import WordMachine.Proofs.Sweep

/-!
# Assembled programs

A statement is a canonical instruction with the words of its operands, and a program is assembled by
writing the words of its statements one after the other.  The words of operands may look like
instructions, but a sweep passes over them: it stops at the first word of each statement and then at
the end, so disassembly and listing show the statements that were assembled.
-/

namespace WordMachine

/-- An instruction that fits its word, with its operands' own words. -/
structure Statement where
  /-- The instruction. -/
  instruction : Instruction
  /-- The operands' own words, those of the target first. -/
  own : List Word
  /-- The instruction is what its word decodes to. -/
  canonical : instruction.Canonical
  /-- The operands have their own words and no more. -/
  complete : instruction.length = own.length + 1

namespace Statement

/-- The words of the statement in memory. -/
def words (statement : Statement) : List Word :=
  statement.instruction.encode :: statement.own

/-- The statement as it is shown when it stands at an address. -/
def line (statement : Statement) (address : Nat) : Disassembly.Line where
  address := address
  word := statement.instruction.encode
  following := statement.own
  text := statement.instruction.text statement.own

theorem length_words (statement : Statement) :
    statement.words.length = statement.instruction.length := by
  rw [statement.complete]
  rfl

theorem decode_encode (statement : Statement) :
    Instruction.decode statement.instruction.encode = statement.instruction :=
  (Instruction.decode_encode_iff _).mpr statement.canonical

end Statement

/-- The words of a program of statements. -/
def assemble (program : List Statement) : List Word :=
  program.flatMap Statement.words

/-- Where the statements of a program start in its words, and where the last of them ends. -/
def starts (program : List Statement) : List Nat :=
  program.inits.map fun before => (assemble before).length

theorem assemble_cons (statement : Statement) (program : List Statement) :
    assemble (statement :: program) = statement.words ++ assemble program :=
  List.flatMap_cons

/-- The starts behind a first statement are those of the rest, moved on by its length. -/
theorem starts_cons (statement : Statement) (program : List Statement) :
    starts (statement :: program) =
      0 :: (starts program).map (statement.instruction.length + ·) := by
  simp [starts, assemble, statement.length_words]

/-- The starts of a program that stands at an address. -/
theorem map_starts_cons (address : Nat) (statement : Statement) (program : List Statement) :
    (starts (statement :: program)).map (address + ·) =
      address :: (starts program).map (address + statement.instruction.length + ·) := by
  rw [starts_cons, List.map_cons, List.map_map]
  simp only [Function.comp_def, Nat.add_assoc, Nat.add_zero]

namespace Disassembly

/-- Where a sweep goes on behind a line. -/
def Line.next (line : Line) : Nat :=
  line.address + (Instruction.decode line.word).length

/-- A line of a sweep shows the words that stand at its address. -/
theorem exists_append_of_mem_sweep
    {address : Nat} {words : List Word} {line : Line} (h : line ∈ sweep address words) :
    ∃ before after, words = before ++ line.words ++ after ∧
      line.address = address + before.length := by
  induction address, words using sweep_induction with
  | nil address =>
    rw [sweep] at h
    contradiction
  | cons address word rest ih =>
    rw [sweep_cons] at h
    rcases List.mem_cons.mp h with rfl | h
    · refine ⟨[], rest.drop ((Instruction.decode word).length - 1), ?_, rfl⟩
      exact congrArg (word :: ·) (List.take_append_drop _ rest).symm
    · obtain ⟨before, after, hrest, haddress⟩ := ih h
      have hlong : (Instruction.decode word).length - 1 ≤ rest.length := by
        have hword := congrArg List.length hrest
        simp only [List.length_drop, List.length_append, Line.words, List.length_cons] at hword
        omega
      have hpos := (Instruction.decode word).length_pos
      refine ⟨word :: rest.take ((Instruction.decode word).length - 1) ++ before, after, ?_, ?_⟩
      · rw [List.append_assoc, List.append_assoc, ← List.append_assoc before, ← hrest,
          List.cons_append, List.take_append_drop]
      · rw [haddress, List.length_append, List.length_cons, List.length_take_of_le hlong]
        omega

theorem getElem?_of_mem_sweep
    {words : List Word} {line : Line} (h : line ∈ sweep 0 words) :
    words[line.address]? = some line.word := by
  obtain ⟨before, after, hwords, haddress⟩ := exists_append_of_mem_sweep h
  rw [hwords, haddress, Nat.zero_add, List.append_assoc, List.getElem?_append_right (Nat.le_refl _),
    Nat.sub_self]
  rfl

/-- A sweep shows a statement as it was written and goes on behind its words. -/
theorem sweep_words_append (address : Nat) (statement : Statement) (rest : List Word) :
    sweep address (statement.words ++ rest) =
      statement.line address :: sweep (address + statement.instruction.length) rest := by
  have hown : statement.instruction.length - 1 = statement.own.length := by
    rw [statement.complete, Nat.add_sub_cancel]
  have htext := statement.instruction.text_take (statement.own ++ rest)
  rw [hown, List.take_left] at htext
  rw [Statement.words, List.cons_append, sweep_cons, statement.decode_encode, hown, List.take_left,
    List.drop_left, ← htext]
  rfl

theorem sweep_assemble_nil (address : Nat) : sweep address (assemble []) = [] := by
  rw [assemble, List.flatMap_nil, sweep]

/-- The lines of a sweep over a program are its statements at their starts. -/
theorem sweep_assemble (address : Nat) (program : List Statement) :
    sweep address (assemble program) =
      List.zipWith Statement.line program ((starts program).map (address + ·)) := by
  induction program generalizing address with
  | nil =>
    rw [sweep_assemble_nil]
    rfl
  | cons statement program ih =>
    rw [assemble_cons, sweep_words_append, ih, map_starts_cons, List.zipWith_cons_cons]

/-- The lines of a sweep over a program stand at the starts of its statements, and the program ends
where the last of them does. -/
theorem map_address_sweep (address : Nat) (program : List Statement) :
    (sweep address (assemble program)).map Line.address ++
        [address + (assemble program).length] =
      (starts program).map (address + ·) := by
  induction program generalizing address with
  | nil =>
    rw [sweep_assemble_nil]
    rfl
  | cons statement program ih =>
    rw [assemble_cons, sweep_words_append, map_starts_cons, ← ih, List.length_append,
      statement.length_words, ← Nat.add_assoc]
    rfl

/-- A sweep over a program goes on from one start to the next. -/
theorem map_next_sweep (address : Nat) (program : List Statement) :
    address :: (sweep address (assemble program)).map Line.next =
      (starts program).map (address + ·) := by
  induction program generalizing address with
  | nil =>
    rw [sweep_assemble_nil]
    rfl
  | cons statement program ih =>
    have hnext : (statement.line address).next = address + statement.instruction.length :=
      congrArg (fun instruction => address + instruction.length) statement.decode_encode
    rw [assemble_cons, sweep_words_append, map_starts_cons, ← ih, List.map_cons, hnext]

/-- What the first words of the lines decode to is what was assembled. -/
theorem map_decode_sweep (address : Nat) (program : List Statement) :
    (sweep address (assemble program)).map (fun line => Instruction.decode line.word) =
      program.map Statement.instruction := by
  induction program generalizing address with
  | nil =>
    rw [sweep_assemble_nil]
    rfl
  | cons statement program ih =>
    rw [assemble_cons, sweep_words_append, List.map_cons, List.map_cons, ih]
    exact congrArg (· :: _) statement.decode_encode

end Disassembly

/-- A sweep over the words of a program stops at the first word of each statement and at the end,
and nowhere else, and each of these words decodes to the instruction of its statement; so
disassembly and listing show the statements as they were written.  Decoding loses nothing of a word
and gives a canonical instruction, and the canonical instructions are those that encoding loses
nothing of. -/
theorem assembled_reads_back :
    (∀ program : List Statement,
      let words := assemble program
      let lines := Disassembly.sweep 0 words
      let shown := List.zipWith Statement.line program (starts program)
      lines.map Disassembly.Line.address ++ [words.length] = starts program ∧
      0 :: lines.map Disassembly.Line.next = starts program ∧
      (∀ line ∈ lines, words[line.address]? = some line.word) ∧
      lines.map (fun line => Instruction.decode line.word) = program.map Statement.instruction ∧
      Disassembly.program words =
        "; Disassembly\n; -----------\n\n" ++
          String.join (shown.map Disassembly.Line.render) ∧
      Listing.render words = String.join (shown.map Listing.renderLine)) ∧
    (∀ word, (Instruction.decode word).encode = word ∧ (Instruction.decode word).Canonical) ∧
    ∀ instruction : Instruction,
      Instruction.decode instruction.encode = instruction ↔ instruction.Canonical := by
  refine ⟨fun program => ?_, fun word => ?_, Instruction.decode_encode_iff⟩
  · have hzero : (starts program).map (0 + ·) = starts program := by
      simp only [Nat.zero_add, List.map_id']
    have haddresses := Disassembly.map_address_sweep 0 program
    have hnexts := Disassembly.map_next_sweep 0 program
    have hlines := Disassembly.sweep_assemble 0 program
    rw [hzero] at haddresses hnexts hlines
    rw [Nat.zero_add] at haddresses
    have hprogram : Disassembly.program (assemble program) =
        "; Disassembly\n; -----------\n\n" ++
          String.join ((List.zipWith Statement.line program (starts program)).map
            Disassembly.Line.render) := by
      unfold Disassembly.program
      rw [hlines]
    have hlisting : Listing.render (assemble program) =
        String.join ((List.zipWith Statement.line program (starts program)).map
          Listing.renderLine) := by
      rw [Listing.render, hlines]
    exact ⟨haddresses, hnexts, fun line => Disassembly.getElem?_of_mem_sweep,
      Disassembly.map_decode_sweep 0 program, hprogram, hlisting⟩
  · exact ⟨Instruction.encode_decode word, Instruction.canonical_decode word⟩

/-- The own word of a statement is that of another instruction, and is passed over. -/
example :
    let set : Statement :=
      ⟨.basic .set (.register .a) .immediate, [0x7c01], ⟨trivial, trivial⟩, rfl⟩
    assemble [set, set] = [0x7c01, 0x7c01, 0x7c01, 0x7c01] ∧ starts [set, set] = [0, 2, 4] := by
  decide

end WordMachine
