import WordMachine.Proofs.Outbound

/-!
# Display, touched rows and memory

Display and touched rows are kept current by the stores that the devices are told of.  `Shows` says
that the cells of a display are the words of its window; like `NetworkCard.Follows` it is kept by
every store that memory takes.  `devices_tell` says what all devices make of a list of events.
-/

namespace WordMachine

namespace Display

theorem offset?_eq_some_iff {address : Word} {k : Fin 384} :
    offset? address = some k ↔ address.toNat = 0x8000 + k := by
  rw [offset?]
  split
  · rename_i hwindow
    rw [Option.some_inj, Fin.ext_iff]
    simp only [start] at hwindow ⊢
    omega
  · rename_i hwindow
    simp only [start] at hwindow
    have := k.isLt
    simp only [reduceCtorEq, false_iff]
    omega

theorem get_cells_onWrite (display : Display) (address value : Word) (j : Fin 384) :
    (display.onWrite address value).cells.get j =
      if address.toNat = 0x8000 + j.val then value else display.cells.get j := by
  cases hk : offset? address with
  | none =>
    have hne : address.toNat ≠ 0x8000 + j.val := fun heq => by
      rw [offset?_eq_some_iff.mpr heq] at hk
      contradiction
    rw [if_neg hne]
    simp only [onWrite, hk]
  | some k =>
    simp only [onWrite, hk]
    rw [vector_get_set]
    congr 1
    rw [eq_iff_iff, offset?_eq_some_iff.mp hk, Nat.add_left_cancel_iff, Fin.ext_iff, eq_comm]

/-- The cells are the words of the window. -/
def Shows (display : Display) (memory : Memory) : Prop :=
  ∀ k, display.cells.get k = memory.getD (0x8000 + k.val)

variable {display : Display} {memory : Memory}

theorem Shows.onWrite
    (h : display.Shows memory) {address : Word} (hhit : memory.lacks address = false)
    (value : Word) : (display.onWrite address value).Shows (memory.put address value) := by
  intro j
  have hlt := Memory.lacks_eq_false_iff.mp hhit
  rw [get_cells_onWrite, Memory.getD_put, h]
  congr 1
  rw [eq_iff_iff]
  constructor
  · intro haddress
    omega
  · rintro ⟨haddress, -⟩
    exact haddress.symm

/-- The display after a list of stores. -/
def onWrites (display : Display) (stores : List (Word × Word)) : Display :=
  stores.foldl (fun display store => display.onWrite store.1 store.2) display

theorem Shows.onWrites
    (h : display.Shows memory) {stores : List (Word × Word)}
    (hhit : ∀ store ∈ stores, memory.lacks store.1 = false) :
    (display.onWrites stores).Shows (memory.putAll stores) := by
  induction stores generalizing display memory with
  | nil => exact h
  | cons store stores ih =>
    exact ih (h.onWrite (hhit store List.mem_cons_self) store.2) (Memory.hit_rest hhit)

theorem get_cells_powerOn (k : Fin 384) : powerOn.cells.get k = 0 :=
  Vector.getElem_replicate k.isLt

end Display

theorem Word.toNat_sub_mod (address : Word) :
    (address - address % 8).toNat = address.toNat - address.toNat % 8 := by
  have hle : address % 8 ≤ address := by
    rw [UInt16.le_iff_toNat_le, UInt16.toNat_mod]
    exact Nat.mod_le _ _
  rw [UInt16.toNat_sub_of_le _ _ hle, UInt16.toNat_mod]
  rfl

namespace Peripherals

theorem rowStart_rowOf (address : Word) :
    rowStart (rowOf address).val = address - address % 8 := by
  have hlt := address.toNat_lt
  apply UInt16.toNat_inj.mp
  rw [address.toNat_sub_mod]
  change 8 * (address.toNat / 8) % 65536 = address.toNat - address.toNat % 8
  omega

theorem mem_rowsWhere {p : Fin 8192 → Bool} {row : Word} :
    row ∈ rowsWhere p ↔ ∃ k, p k = true ∧ row = rowStart k.val := by
  simp only [rowsWhere, List.mem_map, List.mem_filter, List.mem_finRange, true_and]
  exact exists_congr fun k => and_congr_right fun _ => eq_comm

/-- Rows come in ascending order. -/
theorem pairwise_rowsWhere (p : Fin 8192 → Bool) : (rowsWhere p).Pairwise (· < ·) := by
  rw [rowsWhere, List.pairwise_map]
  refine ((List.pairwise_lt_finRange 8192).filter p).imp fun {k j} hlt => ?_
  have hk : (rowStart k.val).toNat = 8 * k.val := Nat.mod_eq_of_lt (by omega)
  have hj : (rowStart j.val).toNat = 8 * j.val := Nat.mod_eq_of_lt (by omega)
  rw [UInt16.lt_iff_toNat_lt, hk, hj]
  exact Nat.mul_lt_mul_of_pos_left hlt (by decide)

theorem get_touch (touched : Vector Bool 8192) (address : Word) (row : Fin 8192) :
    (touch touched address).get row = true ↔ rowOf address = row ∨ touched.get row = true := by
  rw [touch]
  by_cases hrow : rowOf address = row
  · subst hrow
    simp only [true_or, iff_true]
    split
    · assumption
    · rw [vector_get_set, if_pos rfl]
  · simp only [hrow, false_or]
    split
    · rfl
    · rw [vector_get_set, if_neg (Ne.symm hrow)]

/-- The touched rows after a list of stores. -/
def touchAll (touched : Vector Bool 8192) (stores : List (Word × Word)) : Vector Bool 8192 :=
  stores.foldl (fun touched store => touch touched store.1) touched

theorem get_touchAll
    (touched : Vector Bool 8192) (stores : List (Word × Word)) (row : Fin 8192) :
    (touchAll touched stores).get row = true ↔
      (∃ store ∈ stores, rowOf store.1 = row) ∨ touched.get row = true := by
  induction stores generalizing touched with
  | nil => simp [touchAll]
  | cons store stores ih =>
    change (touchAll (touch touched store.1) stores).get row = true ↔ _
    rw [ih, get_touch]
    simp only [List.mem_cons, exists_eq_or_imp]
    exact or_left_comm.trans or_assoc.symm

theorem get_touched_powerOn (hub : Word) (row : Fin 8192) :
    (powerOn hub).touched.get row = false :=
  Vector.getElem_replicate row.isLt

/-- The devices after a list of stores. -/
def onWrites (devices : Peripherals) (stores : List (Word × Word)) : Peripherals where
  display := devices.display.onWrites stores
  keyboard := devices.keyboard
  network := devices.network.onWrites stores
  touched := touchAll devices.touched stores

end Peripherals

namespace Bus

/-- What the devices make of what they are told is what they make of the stores among it. -/
theorem devices_tell (events : List Event) (devices : Peripherals) :
    Watcher.tell events devices = devices.onWrites (Event.stores events) := by
  induction events generalizing devices with
  | nil => rfl
  | cons event events ih =>
    change Watcher.tell events (Watcher.observe event devices) = _
    rw [ih]
    cases event <;> rfl

theorem devices_commitAll (bus : Bus Peripherals) (stores : List (Word × Word)) :
    (bus.commitAll stores).watcher = bus.watcher.onWrites stores := by
  induction stores generalizing bus with
  | nil => rfl
  | cons store stores ih => exact ih (bus.commit store)

end Bus

end WordMachine
