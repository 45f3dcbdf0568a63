/-!
# Decimal numerals

Signed 64-bit integers and their decimal texts. Every integer reads back from its text.
-/

namespace Sharding.Text.Numeral

/-- The 64-bit integer equal to `n`, if there is one. -/
def fit (n : Int) : Option Int64 :=
  if Int64.minValue.toInt ≤ n ∧ n ≤ Int64.maxValue.toInt then some (Int64.ofInt n) else none

/-- The number that decimal digits write. -/
def magnitude (digits : List Char) : Option Nat :=
  if digits ≠ [] ∧ digits.all Char.isDigit then some (Nat.ofDigitChars 10 digits 0) else none

/-- An optional sign, then at least one digit, and nothing else. -/
def signed : List Char → Option Int
  | '-' :: digits => (magnitude digits).map fun n => -(n : Int)
  | '+' :: digits => (magnitude digits).map fun n => (n : Int)
  | digits => (magnitude digits).map fun n => (n : Int)

/-- The integer that a text writes, if it is a numeral within 64 bits. -/
def parse? (s : String) : Option Int64 :=
  (signed s.toList).bind fit

/-- The shortest numeral: a sign only below zero, no leading zero. -/
def print (n : Int64) : String :=
  toString n.toInt

theorem fit_toInt (n : Int64) : fit n.toInt = some n := by
  simp only [fit, Int64.ofInt_toInt, Option.ite_none_right_eq_some, and_true]
  exact ⟨n.minValue_le_toInt, n.toInt_le⟩

theorem toInt_of_fit {n : Int} {w : Int64} (h : fit n = some w) : w.toInt = n := by
  simp only [fit, Option.ite_none_right_eq_some, Option.some.injEq] at h
  obtain ⟨⟨lower, upper⟩, rfl⟩ := h
  exact Int64.toInt_ofInt_of_le lower (Int.lt_of_le_of_lt upper (by decide))

end Sharding.Text.Numeral
