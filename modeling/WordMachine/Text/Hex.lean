/-!
# Hexadecimal text

Numbers are written with lower-case digits, padded on the left with zeros to a least width, and read
digit by digit in either case.  `digits width n` always has exactly `width` digits; `text` chooses
the width, so that no leading digit of the number is lost.
-/

namespace WordMachine.Hex

/-- The lower-case digit for a value below sixteen. -/
def digit (d : Nat) : Char :=
  if d < 10 then Char.ofNat (48 + d) else Char.ofNat (87 + d)

/-- The value of a digit in either case, and nothing for any other character. -/
def value? (c : Char) : Option Nat :=
  if '0' ≤ c ∧ c ≤ '9' then some (c.toNat - 48)
  else if 'a' ≤ c ∧ c ≤ 'f' then some (c.toNat - 87)
  else if 'A' ≤ c ∧ c ≤ 'F' then some (c.toNat - 55)
  else none

/-- The `width` lowest digits of a number, the highest of them first. -/
def digits : Nat → Nat → List Char
  | 0, _ => []
  | width + 1, n => digits width (n / 16) ++ [digit (n % 16)]

/-- The number of digits of a number without leading zeros; zero has one. -/
def size (n : Nat) : Nat :=
  n.log2 / 4 + 1

/-- A number in at least `least` digits. -/
def text (least n : Nat) : String :=
  String.ofList (digits (max least (size n)) n)

/-- A number in at least `least` digits behind `0x`. -/
def marked (least n : Nat) : String :=
  "0x" ++ text least n

@[simp]
theorem length_digits (width n : Nat) : (digits width n).length = width := by
  induction width generalizing n with
  | zero => rfl
  | succ width ih => simp [digits, ih]

theorem mem_digits {width n : Nat} {c : Char} (h : c ∈ digits width n) :
    ∃ d < 16, c = digit d := by
  induction width generalizing n with
  | zero => contradiction
  | succ width ih =>
    rw [digits, List.mem_append, List.mem_singleton] at h
    rcases h with h | rfl
    · exact ih h
    · exact ⟨n % 16, Nat.mod_lt n (by decide), rfl⟩

/-- A digit reads back as its value. -/
theorem value?_digit {d : Nat} (hd : d < 16) : value? (digit d) = some d := by
  have hall : ∀ k < 16, value? (digit k) = some k := by decide
  exact hall d hd

end WordMachine.Hex
