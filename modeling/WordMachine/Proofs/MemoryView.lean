import Mathlib.Data.List.Nodup
import WordMachine.Debugger.View
import WordMachine.Proofs.Coherence
import WordMachine.Proofs.Renewal

/-!
# The view of memory

The debugger's view of memory lists the touched rows and the row of the program counter.  Words
change only by stores that touch their rows, and a reset that forgets the touched rows clears the
words too, so no word outside the list has a value other than zero.  The screen shows a part of the
list, and in it the word at the program counter stands out.
-/

namespace WordMachine

/-- Every word that is not zero is in a touched row. -/
def Machine.Reveals (m : Machine Peripherals) : Prop :=
  ∀ address, m.memory.wordAt address ≠ 0 →
    m.devices.touched.get (Peripherals.rowOf address) = true

theorem Machine.reveals_of_blank
    {m : Machine Peripherals} {capacity : Nat} (h : m.memory = .blank capacity) : m.Reveals := by
  intro address hword
  rw [h] at hword
  exact (hword (Memory.getD_blank capacity address.toNat)).elim

/-- No operation hides a word: it touches the rows that it stores to, and a reset clears memory. -/
theorem Operation.reveals_perform
    {m : Machine Peripherals} (h : m.Reveals) (hfollows : m.devices.network.Follows m.memory)
    (operation : Operation) : (operation.perform m).Reveals := by
  cases hreset : operation.isReset with
  | true =>
    cases operation with
    | reset devicesFirst =>
      exact Machine.reveals_of_blank (perform_reset m devicesFirst).1
    | _ => contradiction
  | false =>
    obtain ⟨-, htouched, hmemory, -⟩ := perform_records hfollows hreset
    intro address hword
    rw [htouched, Peripherals.get_touchAll]
    by_cases hstored : ∃ store ∈ operation.stores m, store.1 = address
    · obtain ⟨store, hstore, rfl⟩ := hstored
      exact .inl ⟨store, hstore, rfl⟩
    · have hunstored : ∀ store ∈ operation.stores m, store.1 ≠ address :=
        fun store hstore heq => hstored ⟨store, hstore, heq⟩
      rw [hmemory, Memory.wordAt_putAll_of_ne hunstored] at hword
      exact .inr (h address hword)

namespace Session

theorem after_append (capacity : Nat) (hub : Word) (operations others : List Operation) :
    after capacity hub (operations ++ others) = (after capacity hub operations).nexts others :=
  List.foldl_append

theorem reveals_after (capacity : Nat) (hub : Word) (operations : List Operation) :
    (after capacity hub operations).machine.Reveals := by
  induction operations using List.reverseRecOn with
  | nil => exact Machine.reveals_of_blank rfl
  | append_singleton operations operation ih =>
    rw [after_snoc]
    exact operation.reveals_perform ih (sound_after capacity hub operations).follows

end Session

/-- What a command does to the machine of a debugger, packets that are collected included. -/
def Command.course {σ : Type} (debugger : Debugger σ) (command : Command) : List Operation :=
  command.operations debugger ++ if command.collects debugger then [.drain] else []

namespace Debugger

section

variable {σ : Type} [Hosted σ]

theorem machine_deliver (debugger : Debugger σ) :
    debugger.deliver.machine = Operation.drain.perform debugger.machine := by
  simp only [deliver, onMachine_eq, Operation.perform]
  cases Machine.drain debugger.machine <;> rfl

theorem machine_perform (debugger : Debugger σ) (command : Command) :
    (command.perform debugger).machine =
      (command.course debugger).foldl (fun m operation => operation.perform m)
        debugger.machine := by
  obtain ⟨worked, hperform, hmachine, -⟩ := command.perform_eq debugger
  rw [hperform, Command.course, List.foldl_append, ← hmachine]
  cases command.collects debugger with
  | true => exact worked.machine_deliver
  | false => rfl

end

/-- The debugger of a machine that was built and loaded, after the commands of its user. -/
def opened (program : List Word) (capacity : Nat) (hub : Word) (batchSize : Nat)
    (commands : List Command) : Debugger Peripherals :=
  (start (finalState (Machine.build program capacity hub)) program batchSize).performAll commands

/-- Whatever the user of a debugger does, its machine is one in the course of a session. -/
theorem exists_operations
    (program : List Word) (capacity : Nat) (hub : Word) (batchSize : Nat)
    (commands : List Command) :
    ∃ operations, (opened program capacity hub batchSize commands).machine =
      (Session.after capacity hub operations).machine := by
  induction commands using List.reverseRecOn with
  | nil => exact ⟨[.load program], rfl⟩
  | append_singleton commands command ih =>
    let debugger := opened program capacity hub batchSize commands
    obtain ⟨operations, hmachine⟩ := ih
    have hsnoc : opened program capacity hub batchSize (commands ++ [command]) =
        command.perform debugger := List.foldl_append
    refine ⟨operations ++ command.course debugger, ?_⟩
    rw [hsnoc, debugger.machine_perform, Session.after_append, Session.machine_nexts, hmachine]

end Debugger

/-- The words of the row that begins at an address. -/
def rowWords (row : Word) : List Word :=
  (List.range 8).map fun offset => row + UInt16.ofNat offset

theorem toNat_rowWord {row : Word} (hrow : row % 8 = 0) {offset : Nat} (hoffset : offset < 8) :
    (row + UInt16.ofNat offset).toNat = row.toNat + offset := by
  have hmod : row.toNat % 8 = 0 := congrArg UInt16.toNat hrow
  have hlt := row.toNat_lt
  rw [UInt16.toNat_add, UInt16.toNat_ofNat']
  change (row.toNat + offset % 65536) % 65536 = _
  omega

theorem mem_rowWords {row address : Word} (hrow : row % 8 = 0) :
    address ∈ rowWords row ↔ address - address % 8 = row := by
  have hmod : row.toNat % 8 = 0 := congrArg UInt16.toNat hrow
  have hstart := address.toNat_sub_mod
  rw [rowWords, List.mem_map]
  constructor
  · rintro ⟨offset, hoffset, rfl⟩
    have hword := toNat_rowWord hrow (List.mem_range.mp hoffset)
    have hlt := List.mem_range.mp hoffset
    apply UInt16.toNat_inj.mp
    omega
  · intro heq
    have hlt : address.toNat % 8 < 8 := Nat.mod_lt _ (by decide)
    refine ⟨address.toNat % 8, List.mem_range.mpr hlt, UInt16.toNat_inj.mp ?_⟩
    rw [toNat_rowWord hrow hlt, ← heq, hstart]
    exact Nat.sub_add_cancel (Nat.mod_le _ _)

theorem nodup_rowWords {row : Word} (hrow : row % 8 = 0) : (rowWords row).Nodup := by
  refine List.Nodup.map_on ?_ List.nodup_range
  intro i hi j hj heq
  have hwords := congrArg UInt16.toNat heq
  rw [toNat_rowWord hrow (List.mem_range.mp hi), toNat_rowWord hrow (List.mem_range.mp hj)]
    at hwords
  exact Nat.add_left_cancel hwords

/-- Different rows have no word in common, so each word of some rows occurs in them once. -/
theorem nodup_words
    {rows : List Word} (hrows : rows.Nodup) (hmod : ∀ row ∈ rows, row % 8 = 0) :
    (rows.flatMap rowWords).Nodup := by
  rw [List.nodup_flatMap]
  refine ⟨fun row hrow => nodup_rowWords (hmod row hrow), hrows.imp_of_mem ?_⟩
  intro row other hrow hother hne address hword hword'
  rw [mem_rowWords (hmod row hrow)] at hword
  rw [mem_rowWords (hmod other hother)] at hword'
  exact hne (hword.symm.trans hword')

theorem filter_words
    {rows : List Word} (hrows : rows.Nodup) (hmod : ∀ row ∈ rows, row % 8 = 0) (address : Word) :
    (rows.flatMap rowWords).filter (· = address) =
      if address - address % 8 ∈ rows then [address] else [] := by
  have hmem : address ∈ rows.flatMap rowWords ↔ address - address % 8 ∈ rows := by
    rw [List.mem_flatMap]
    constructor
    · rintro ⟨row, hrow, hword⟩
      rwa [(mem_rowWords (hmod row hrow)).mp hword]
    · intro hrow
      exact ⟨_, hrow, (mem_rowWords (hmod _ hrow)).mpr rfl⟩
  rw [List.filter_eq, (nodup_words hrows hmod).count]
  simp only [hmem]
  split <;> rfl

namespace Debugger

section

variable {σ : Type} (debugger : Debugger σ)

theorem style_wordSpan (address : Word) :
    (debugger.wordSpan address).style = highlight ↔ address = debugger.machine.pc := by
  simp only [wordSpan]
  split
  · rename_i hpc
    exact iff_of_true rfl hpc
  · rename_i hpc
    refine iff_of_false ?_ hpc
    split <;> decide

theorem spans_memoryLine (row : Word) :
    (debugger.memoryLine row).spans =
      ⟨Hex.text 4 row.toNat ++ ":", plain .darkGray⟩ :: (rowWords row).map debugger.wordSpan := by
  rw [memoryLine, rowWords, List.map_map]
  rfl

/-- The spans that stand out in lines of memory are those of the words at the program counter. -/
theorem highlighted_memoryLines (rows : List Word) :
    ((rows.map debugger.memoryLine).flatMap PanelLine.spans).filter (·.style = highlight) =
      ((rows.flatMap rowWords).filter (· = debugger.machine.pc)).map debugger.wordSpan := by
  induction rows with
  | nil => rfl
  | cons row rows ih =>
    have hlabel : plain .darkGray ≠ highlight := by decide
    simp only [List.map_cons, List.flatMap_cons, List.filter_append, List.map_append, ih,
      spans_memoryLine, List.filter_cons, hlabel, List.filter_map, Function.comp_def,
      style_wordSpan]
    rfl

end

section

variable {σ : Type} [Hosted σ] (debugger : Debugger σ)

theorem pairwise_memoryRows : debugger.memoryRows.Pairwise (· < ·) :=
  pairwise_insertAscending (Peripherals.pairwise_rowsWhere _)

theorem mem_memoryRows {row : Word} :
    row ∈ debugger.memoryRows ↔
      row ∈ debugger.machine.devices.touchedRows ∨
        row = debugger.machine.pc - debugger.machine.pc % 8 := by
  rw [memoryRows, mem_insertAscending, or_comm]

theorem mod_of_mem_memoryRows {row : Word} (h : row ∈ debugger.memoryRows) : row % 8 = 0 := by
  have hstart : ∃ k : Fin 8192, row = Peripherals.rowStart k.val := by
    rcases debugger.mem_memoryRows.mp h with htouched | rfl
    · obtain ⟨k, -, hk⟩ := Peripherals.mem_rowsWhere.mp htouched
      exact ⟨k, hk⟩
    · exact ⟨_, (Peripherals.rowStart_rowOf _).symm⟩
  obtain ⟨k, rfl⟩ := hstart
  apply UInt16.toNat_inj.mp
  rw [UInt16.toNat_mod, Peripherals.rowStart, UInt16.toNat_ofNat']
  change 8 * k.val % 65536 % 8 = 0
  omega

/-- The view of memory in a box of some height: its lines show consecutive rows of the list, as many
as there is room for, and in them no word stands out but that at the program counter, which does if
its row is shown. -/
structure Views (height : Nat) : Prop where
  slice : ∃ above below,
    debugger.memoryRows = above ++ debugger.visibleRows (height - 2) ++ below ∧
      above.length = min debugger.scroll debugger.memoryRows.length ∧
      (below = [] ∨ (debugger.visibleRows (height - 2)).length = height - 2)
  lines : (debugger.memoryPanel height).lines.map PanelLine.spans =
    (debugger.visibleRows (height - 2)).map fun row =>
      ⟨Hex.text 4 row.toNat ++ ":", plain .darkGray⟩ :: (rowWords row).map debugger.wordSpan
  highlighted : ((debugger.visibleRows (height - 2)).flatMap rowWords).filter
      (fun address => (debugger.wordSpan address).style = highlight) =
    if debugger.machine.pc - debugger.machine.pc % 8 ∈ debugger.visibleRows (height - 2) then
      [debugger.machine.pc]
    else []
  spans : ((debugger.memoryPanel height).lines.flatMap PanelLine.spans).filter
      (·.style = highlight) =
    if debugger.machine.pc - debugger.machine.pc % 8 ∈ debugger.visibleRows (height - 2) then
      [debugger.wordSpan debugger.machine.pc]
    else []

theorem views (height : Nat) : debugger.Views height := by
  let rows := debugger.visibleRows (height - 2)
  have hsub : rows.Sublist debugger.memoryRows :=
    (List.take_sublist _ _).trans (List.drop_sublist _ _)
  have hrows : rows.Nodup := by
    have hascending := debugger.pairwise_memoryRows.sublist hsub
    exact hascending.imp UInt16.ne_of_lt
  have hwords := filter_words hrows
    (fun row hrow => debugger.mod_of_mem_memoryRows (hsub.subset hrow)) debugger.machine.pc
  constructor
  case slice =>
    refine ⟨debugger.memoryRows.take debugger.scroll,
      (debugger.memoryRows.drop debugger.scroll).drop (height - 2), ?_, List.length_take, ?_⟩
    · rw [visibleRows, List.append_assoc, List.take_append_drop, List.take_append_drop]
    · rw [visibleRows, List.drop_eq_nil_iff, List.length_take]
      omega
  case lines =>
    rw [memoryPanel, List.map_map]
    exact List.map_congr_left fun row _ => debugger.spans_memoryLine row
  case highlighted =>
    simp only [style_wordSpan]
    exact hwords
  case spans =>
    rw [memoryPanel, highlighted_memoryLines, hwords]
    split <;> rfl

end

/-- The view of memory hides nothing.  Whatever the user does, its list is ascending and made of
starts of rows, those of the touched rows and that of the row of the program counter, and every word
that is not zero is in one of them.  At any scroll offset and in a box of any height a part of the
list is shown, and the word at the program counter stands out in it. -/
theorem memory_view
    (program : List Word) (capacity : Nat) (hub : Word) (batchSize : Nat)
    (commands : List Command) :
    let debugger := opened program capacity hub batchSize commands
    debugger.memoryRows.Pairwise (· < ·) ∧
    (∀ row ∈ debugger.memoryRows, row % 8 = 0) ∧
    (∀ row, row ∈ debugger.memoryRows ↔
      row ∈ debugger.machine.devices.touchedRows ∨
        row = debugger.machine.pc - debugger.machine.pc % 8) ∧
    (∀ address, debugger.machine.memory.wordAt address ≠ 0 →
      address - address % 8 ∈ debugger.memoryRows) ∧
    ∀ scroll height, ({ debugger with scroll } : Debugger Peripherals).Views height := by
  intro debugger
  refine ⟨debugger.pairwise_memoryRows, fun row => debugger.mod_of_mem_memoryRows,
    fun row => debugger.mem_memoryRows, fun address hword => ?_,
    fun scroll height => views _ height⟩
  obtain ⟨operations, hmachine⟩ := exists_operations program capacity hub batchSize commands
  have htouched := Session.reveals_after capacity hub operations address
  rw [← hmachine] at htouched
  rw [mem_memoryRows, Peripherals.touchedRows, Peripherals.mem_rowsWhere]
  exact .inl ⟨_, htouched hword, (Peripherals.rowStart_rowOf address).symm⟩

end Debugger

end WordMachine
