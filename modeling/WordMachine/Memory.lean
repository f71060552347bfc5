import WordMachine.Word
import WordMachine.Text.Hex

/-!
# Main memory

A block of words from address zero upward, never larger than the address space.  Looking at a word
beyond the capacity gives nothing; storing needs a proof that the address is inside.
-/

namespace WordMachine

/-- Why an access to memory fails. -/
inductive MemoryFault
  /-- The address is at or past the capacity. -/
  | outOfRange (address capacity : Nat)
  /-- The value does not fit in a word. -/
  | valueTooLarge (address value : Nat)
  deriving DecidableEq

def MemoryFault.message : MemoryFault → String
  | outOfRange address capacity =>
    "memory address " ++ Hex.marked 4 address ++ " out of range (capacity " ++
      Hex.marked 1 capacity ++ ")"
  | valueTooLarge address value =>
    "value " ++ Hex.marked 1 value ++ " written to " ++ Hex.marked 4 address ++
      " is larger than a word"

/-- A block of words. -/
structure Memory where
  /-- The words, from address zero upward. -/
  words : Array Word
  /-- A word can address every word of the block. -/
  size_le : words.size ≤ addressSpace

namespace Memory

/-- A block of zeros; a capacity beyond the address space is cut down to it. -/
def blank (capacity : Nat) : Memory where
  words := Array.replicate (min capacity addressSpace) 0
  size_le := by
    rw [Array.size_replicate]
    exact Nat.min_le_right _ _

abbrev capacity (m : Memory) : Nat :=
  m.words.size

/-- The word at an address, if the address is below the capacity. -/
def get? (m : Memory) (address : Nat) : Option Word :=
  m.words[address]?

/-- The word at an address, where words past the capacity count as zero. -/
def getD (m : Memory) (address : Nat) : Word :=
  (m.get? address).getD 0

/-- Stores a word at an address below the capacity. -/
def set (m : Memory) (address : Nat) (value : Word) (h : address < m.capacity) : Memory where
  words := m.words.set address value h
  size_le := by
    rw [Array.size_set]
    exact m.size_le

def clear (m : Memory) : Memory :=
  blank m.capacity

/-- The words that are not zero, each with its address, in ascending order. -/
def nonZero (m : Memory) : List (Nat × Word) :=
  ((List.range m.capacity).zip m.words.toList).filter fun entry => entry.2 != 0

def countNonZero (m : Memory) : Nat :=
  m.words.countP (· != 0)

@[simp]
theorem capacity_blank (capacity : Nat) :
    (blank capacity).capacity = min capacity addressSpace := by
  simp [blank, Memory.capacity]

@[simp]
theorem capacity_set
    (m : Memory) (address : Nat) (value : Word) (h : address < m.capacity) :
    (m.set address value h).capacity = m.capacity := by
  simp [set, capacity]

theorem capacity_le (m : Memory) : m.capacity ≤ addressSpace :=
  m.size_le

@[simp]
theorem capacity_clear (m : Memory) : m.clear.capacity = m.capacity := by
  rw [clear, capacity_blank, Nat.min_eq_left m.capacity_le]

theorem get?_eq_none_iff {m : Memory} {address : Nat} :
    m.get? address = none ↔ m.capacity ≤ address := by
  simp [get?]

theorem get?_set
    (m : Memory) (address other : Nat) (value : Word) (h : address < m.capacity) :
    (m.set address value h).get? other =
      if other = address then some value else m.get? other := by
  simp only [get?, set, Array.getElem?_set, eq_comm]

end Memory

end WordMachine
