import Sharding.Document.Literal
/-!
# Magnitudes

Whether the magnitude of a number can be held in a binary64 float. As many leading digits as fit in
64 bits make the significand, which is rounded and scaled by a rounded power of ten.
-/

namespace Sharding.Document

/-- The nearest number with 53 significant bits, of two the even one. -/
def roundBits (n : Nat) : Nat :=
  if n < 1 <<< 53 then n
  else
    let unit := 1 <<< (n.log2 - 52)
    let low := n / unit
    let rest := 2 * (n % unit)
    if unit < rest ∨ unit = rest ∧ low % 2 = 1 then (low + 1) * unit else low * unit

/-- The significand after some more digits, and how many of them it could take. -/
def absorb (significand : Nat) : List Char → Nat × Nat
  | [] => (significand, 0)
  | digit :: digits =>
    let next := significand * 10 + (digit.toNat - '0'.toNat)
    if next < UInt64.size then
      let (significand, taken) := absorb next digits
      (significand, taken + 1)
    else (significand, 0)

/-- Products from here on round to infinity. -/
def infinityThreshold : Nat := 1 <<< 1024 - 1 <<< 970

/-- The magnitude does not overflow. A digit that the significand cannot take counts as a power of
ten before the point, and not at all after it. -/
def Number.isFinite (number : Number) : Bool :=
  let (whole, taken) := absorb 0 number.whole
  let (significand, places) := absorb whole number.fraction
  let scale : Int := ((number.whole.length - taken : Nat) : Int) - (places : Int) + number.exponent
  significand == 0 || scale < 0 ||
    scale ≤ 308 && roundBits significand * roundBits (Nat.pow 10 scale.toNat) < infinityThreshold

end Sharding.Document
