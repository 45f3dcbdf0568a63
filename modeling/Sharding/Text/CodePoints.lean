/-!
# Sets of code points

A character class is a list of closed ranges of code points.
-/

namespace Sharding.Text

/-- The code point of `c` lies in one of the closed ranges. -/
def within (ranges : List (Nat × Nat)) (c : Char) : Bool :=
  ranges.any fun (first, last) => first ≤ c.toNat && c.toNat ≤ last

end Sharding.Text
