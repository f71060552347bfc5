import WordMachine.Proofs.Session

/-!
# Copies of memory in the course of a session

The display holds a copy of its window, the network card one of the outbound words, and the touched
rows tell where stores went.  All are kept current by the stores that the devices are told of, so no
operation can part them from memory: one that fails has told of the stores that it made, a drain
tells of its zeroes, and a reset clears both sides.
-/

namespace WordMachine

namespace Operation

/-- Whether the operation is a reset. -/
def isReset : Operation → Bool
  | reset _ => true
  | _ => false

variable {m : Machine Peripherals}

/-- An operation other than a reset does to memory, display and touched rows what its stores do. -/
theorem perform_records
    (hfollows : m.devices.network.Follows m.memory) {operation : Operation}
    (h : operation.isReset = false) :
    (operation.perform m).devices.display =
        m.devices.display.onWrites (operation.stores m) ∧
      (operation.perform m).devices.touched =
        Peripherals.touchAll m.devices.touched (operation.stores m) ∧
      (operation.perform m).memory = m.memory.putAll (operation.stores m) ∧
      ∀ store ∈ operation.stores m, m.memory.lacks store.1 = false := by
  cases hempties : operation.empties with
  | false =>
    obtain ⟨devices, hcopies, hdevices, hmemory, hhit, -⟩ := perform_copies m hempties
    rw [hdevices, ← hcopies.display, ← hcopies.touched]
    exact ⟨rfl, rfl, hmemory, hhit⟩
  | true =>
    cases operation with
    | drain =>
      obtain ⟨-, hmemory, -⟩ := perform_drain hfollows
      obtain ⟨hdisplay, htouched⟩ := Bus.records_drain m.bus hfollows
      rw [← Machine.finalState_onBus] at hdisplay htouched
      rw [stores_drain hfollows]
      exact ⟨hdisplay, htouched, hmemory, lacks_of_mem_zeroes hfollows.zeroable⟩
    | reset devicesFirst => contradiction
    | _ => contradiction

/-- A reset blanks memory and display and forgets the touched rows. -/
theorem perform_reset (m : Machine Peripherals) (devicesFirst : Bool) :
    ((reset devicesFirst).perform m).memory = m.memory.clear ∧
      ((reset devicesFirst).perform m).devices = m.devices.reset := by
  cases devicesFirst <;> exact ⟨rfl, rfl⟩

end Operation

namespace Session

/-- Since the last reset of the session an operation has stored a word at the address. -/
def Written
    (capacity : Nat) (hub : Word) (operations : List Operation) (address : Word) : Prop :=
  ∃ before operation later value, operations = before ++ operation :: later ∧
    (∀ other ∈ later, other.isReset = false) ∧
    (address, value) ∈ operation.stores (after capacity hub before).machine

variable {capacity : Nat} {hub : Word} {operations : List Operation} {operation : Operation}

theorem not_written_nil (address : Word) : ¬Written capacity hub [] address := by
  rintro ⟨before, operation, later, value, heq, -⟩
  simp at heq

/-- An operation adds its own stores to those since the last reset, and a reset, which stores
nothing, takes these away. -/
theorem written_after_snoc {address : Word} :
    Written capacity hub (operations ++ [operation]) address ↔
      (∃ value, (address, value) ∈ operation.stores (after capacity hub operations).machine) ∨
        (operation.isReset = false ∧ Written capacity hub operations address) := by
  have hwritten (operations : List Operation) :
      Written capacity hub operations address ↔
        ∃ before operation later, operations = before ++ operation :: later ∧
          (∃ value, (address, value) ∈ operation.stores (after capacity hub before).machine) ∧
          ∀ other ∈ later, other.isReset = false := by
    constructor
    · rintro ⟨before, operation, later, value, heq, hlater, hstore⟩
      exact ⟨before, operation, later, heq, ⟨value, hstore⟩, hlater⟩
    · rintro ⟨before, operation, later, heq, ⟨value, hstore⟩, hlater⟩
      exact ⟨before, operation, later, value, heq, hlater, hstore⟩
  rw [hwritten, hwritten, and_comm]
  exact exists_split_snoc
    (P := fun before operation =>
      ∃ value, (address, value) ∈ operation.stores (after capacity hub before).machine)
    (Q := fun other => Operation.isReset other = false)

/-- Display and touched rows agree with memory and with the stores since the last reset. -/
structure Coherent (capacity : Nat) (hub : Word) (operations : List Operation) : Prop where
  shows : (after capacity hub operations).machine.devices.display.Shows
    (after capacity hub operations).machine.memory
  touched : ∀ row, (after capacity hub operations).machine.devices.touched.get row = true ↔
    ∃ address, Written capacity hub operations address ∧ Peripherals.rowOf address = row

theorem coherent_nil (capacity : Nat) (hub : Word) : Coherent capacity hub [] where
  shows k := by
    rw [after, List.foldl_nil]
    exact (Display.get_cells_powerOn k).trans (Memory.getD_blank capacity _).symm
  touched row := by
    have huntouched := Peripherals.get_touched_powerOn hub row
    refine iff_of_false (ne_true_of_eq_false huntouched) ?_
    rintro ⟨address, hwritten, -⟩
    exact not_written_nil address hwritten

theorem Coherent.snoc_reset (devicesFirst : Bool) :
    Coherent capacity hub (operations ++ [.reset devicesFirst]) := by
  obtain ⟨hmemory, hdevices⟩ :=
    Operation.perform_reset (after capacity hub operations).machine devicesFirst
  have hmachine : (after capacity hub (operations ++ [.reset devicesFirst])).machine =
      (Operation.reset devicesFirst).perform (after capacity hub operations).machine := by
    rw [after_snoc]
    rfl
  constructor
  · intro k
    rw [hmachine, hmemory, hdevices]
    exact (Display.get_cells_powerOn k).trans (Memory.getD_blank _ _).symm
  · intro row
    have huntouched := Peripherals.get_touched_powerOn
      (after capacity hub operations).machine.devices.network.hub row
    rw [hmachine, hdevices]
    refine iff_of_false (ne_true_of_eq_false huntouched) ?_
    rintro ⟨address, hwritten, -⟩
    rcases written_after_snoc.mp hwritten with ⟨value, hstore⟩ | ⟨hreset, -⟩
    · rw [Operation.stores_reset] at hstore
      contradiction
    · contradiction

/-- Display and touched rows go on agreeing with memory. -/
theorem Coherent.snoc
    (h : Coherent capacity hub operations) (operation : Operation) :
    Coherent capacity hub (operations ++ [operation]) := by
  cases hreset : operation.isReset with
  | true =>
    cases operation with
    | reset devicesFirst => exact .snoc_reset devicesFirst
    | _ => contradiction
  | false =>
    obtain ⟨hdisplay, htouched, hmemory, hhit⟩ :=
      Operation.perform_records (sound_after capacity hub operations).follows hreset
    have hmachine : (after capacity hub (operations ++ [operation])).machine =
        operation.perform (after capacity hub operations).machine := by
      rw [after_snoc]
      rfl
    constructor
    · rw [hmachine, hdisplay, hmemory]
      exact h.shows.onWrites hhit
    · intro row
      rw [hmachine, htouched, Peripherals.get_touchAll, h.touched]
      simp only [written_after_snoc, hreset, true_and, or_and_right, exists_or]
      refine or_congr_left ?_
      constructor
      · rintro ⟨⟨address, value⟩, hstore, hrow⟩
        exact ⟨address, ⟨value, hstore⟩, hrow⟩
      · rintro ⟨address, ⟨value, hstore⟩, hrow⟩
        exact ⟨(address, value), hstore, hrow⟩

theorem coherent_after (capacity : Nat) (hub : Word) (operations : List Operation) :
    Coherent capacity hub operations := by
  induction operations using List.reverseRecOn with
  | nil => exact coherent_nil capacity hub
  | append_singleton operations operation ih => exact ih.snoc operation

/-- At any point of a session, and whatever its operations were, the devices' copies agree with
memory, where words past the capacity count as zero: the cells of the display, the outbound words of
the card, and the marks, each on a pair with a receiver.  The outbox is within its limit, and the
touched rows are those of the addresses written since the last reset, in ascending order. -/
theorem copies_after (capacity : Nat) (hub : Word) (operations : List Operation) :
    let m := (after capacity hub operations).machine
    (∀ k, m.devices.display.cells.get k = m.memory.getD (0x8000 + k.val)) ∧
    (∀ k, m.devices.network.outbound.get k = m.memory.getD (0x6080 + k.val)) ∧
    (∀ data ∈ m.devices.network.unzeroed,
      data.toNat % 2 = 1 ∧ 0x6081 ≤ data.toNat ∧ data.toNat ≤ 0x60ff ∧
        m.memory.wordAt (data - 1) ≠ 0) ∧
    m.devices.network.outbox.length ≤ 256 ∧
    (∀ row, row ∈ m.devices.touchedRows ↔
      ∃ address, Written capacity hub operations address ∧ row = address - address % 8) ∧
    m.devices.touchedRows.Pairwise (· < ·) := by
  intro m
  have hsound := sound_after capacity hub operations
  have hcoherent := coherent_after capacity hub operations
  refine ⟨hcoherent.shows, hsound.follows.mirror, ?_, ?_, ?_, Peripherals.pairwise_rowsWhere _⟩
  · intro data hdata
    obtain ⟨⟨hstart, hend, hodd⟩, -, hreceiver⟩ := hsound.follows.marked data hdata
    refine ⟨hodd, ?_, ?_, hreceiver⟩ <;> omega
  · rw [hsound.outbox, length_latest]
    exact Nat.min_le_right _ _
  · intro row
    rw [Peripherals.touchedRows, Peripherals.mem_rowsWhere]
    constructor
    · rintro ⟨k, htouched, rfl⟩
      obtain ⟨address, hwritten, rfl⟩ := (hcoherent.touched k).mp htouched
      exact ⟨address, hwritten, Peripherals.rowStart_rowOf address⟩
    · rintro ⟨address, hwritten, rfl⟩
      exact ⟨Peripherals.rowOf address, (hcoherent.touched _).mpr ⟨address, hwritten, rfl⟩,
        (Peripherals.rowStart_rowOf address).symm⟩

/-- The store of an instruction is touched and copied to the card. -/
theorem copies_after_prepared :
    Written addressSpace 1 (prepared ++ [.step]) 0x6081 ∧
      0x6080 ∈ (after addressSpace 1 (prepared ++ [.step])).machine.devices.touchedRows ∧
      (after addressSpace 1 (prepared ++ [.step])).machine.devices.network.outbound.get 1 = 3 := by
  have hwritten : Written addressSpace 1 (prepared ++ [.step]) 0x6081 := by
    refine ⟨prepared, .step, [], 3, rfl, nofun, ?_⟩
    rw [stores_step_prepared]
    exact List.mem_singleton_self _
  have hword : (after addressSpace 1 (prepared ++ [.step])).machine.memory.getD 0x6081 = 3 := by
    have hstep : Operation.step.isReset = false := rfl
    obtain ⟨-, -, hmemory, hhit⟩ :=
      Operation.perform_records (sound_after addressSpace 1 prepared).follows hstep
    rw [stores_step_prepared] at hmemory hhit
    have hlacks := hhit _ (List.mem_singleton_self _)
    rw [after_snoc, machine_next, hmemory, Memory.putAll_cons, Memory.putAll_nil]
    exact Memory.wordAt_put_self hlacks 3
  obtain ⟨-, hcopy, -, -, hrows, -⟩ := copies_after addressSpace 1 (prepared ++ [.step])
  exact ⟨hwritten, (hrows _).mpr ⟨_, hwritten, by decide⟩, (hcopy 1).trans hword⟩

end Session

end WordMachine
