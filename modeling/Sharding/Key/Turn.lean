import Sharding.Fault.Basic
/-!
# Turns

One turn of something that issues keys.
-/

namespace Sharding.Key

/-- The key or the fault of a turn, the state after it and the clock readings it left over. -/
structure Turn (σ : Type) where
  key : Except Fault Int64
  state : σ
  readings : List Int

end Sharding.Key
