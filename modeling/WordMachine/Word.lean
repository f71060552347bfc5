/-!
# Machine words

The machine computes with sixteen-bit words and addresses memory with the same words, so a full
address space has 65536 of them.
-/

namespace WordMachine

/-- A sixteen-bit word; arithmetic on words wraps. -/
abbrev Word := UInt16

/-- The number of words that a word can address. -/
def addressSpace : Nat := 65536

theorem Word.toNat_lt_addressSpace (w : Word) : w.toNat < addressSpace :=
  w.toNat_lt

theorem Word.add_ofNat_succ (w : Word) (k : Nat) :
    w + UInt16.ofNat (k + 1) = w + 1 + UInt16.ofNat k := by
  rw [UInt16.ofNat_add, UInt16.add_comm (UInt16.ofNat k), ← UInt16.add_assoc]
  rfl

/-- Going up from a word by less than the address space does not lead to the word below it. -/
theorem Word.add_ofNat_ne_sub_one (w : Word) {k : Nat} (h : k + 1 < addressSpace) :
    w + UInt16.ofNat k ≠ w - 1 := by
  intro heq
  have hk : UInt16.ofNat k = 0xffff := by
    rw [UInt16.sub_eq_add_neg] at heq
    exact (UInt16.add_right_inj w).mp heq
  have hlast := congrArg UInt16.toNat hk
  rw [UInt16.toNat_ofNat_of_lt' (Nat.lt_of_succ_lt h)] at hlast
  rw [hlast] at h
  exact absurd h (by decide)

end WordMachine
