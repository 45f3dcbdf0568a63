import Mathlib.Data.List.Sort
import Sharding.Inline.Evaluation
import Sharding.Proofs.Numeral
/-!
# Exact results

What the operators of placeholder bodies have as results, in terms of the integers that the operands
are. A result is exact or there is none: it exists where it is an integer of 64 bits.
-/

namespace Sharding.Inline

open Text

namespace Operator

end Operator

namespace Datum

/-- The value of a range is the list of all integers from one bound to the other, both included,
upward or downward. -/
inductive Spans : Datum → Datum → Datum → Prop where
  | upward {first last : Int64} {ns : List Int64} (hdirection : first ≤ last)
    (hspan : last.toInt - first.toInt < 1000000) (hsorted : ns.Pairwise (· < ·))
    (hmem : ∀ n, n ∈ ns ↔ first ≤ n ∧ n ≤ last) :
    Spans (.int first) (.int last) (.list (ns.map .int))
  | downward {first last : Int64} {ns : List Int64} (hdirection : last < first)
    (hspan : first.toInt - last.toInt < 1000000) (hsorted : ns.Pairwise (· > ·))
    (hmem : ∀ n, n ∈ ns ↔ last ≤ n ∧ n ≤ first) :
    Spans (.int first) (.int last) (.list (ns.map .int))

end Datum

variable {first last : Int64}

namespace Datum

end Datum

end Sharding.Inline
