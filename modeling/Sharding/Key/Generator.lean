import Sharding.Key.Snowflake
/-!
# Key generators

A generator draws its keys from a clock or counts them. What it remembers between two keys is a
state of its own, apart from its definition.
-/

namespace Sharding.Key

inductive Source where
  | clock (settings : Snowflake.Settings)
  | count (nth : Nat → Except Fault Int64)

structure Generator where
  type : String
  props : Properties
  source : Source

/-- What a generator remembers: the last key of the clock, or how many keys it counted. -/
structure State where
  snowflake : Snowflake.State
  count : Nat

def State.initial : State := ⟨.initial, 0⟩

def snowflake (props : Properties) : Except Fault Generator := do
  let settings ← Snowflake.Settings.ofProperties props
  .ok ⟨"SNOWFLAKE", props, .clock settings⟩

/-- Counts from one, and wraps after the greatest integer. -/
def increment (props : Properties) : Generator :=
  ⟨"INCREMENT", props, .count fun n => .ok (Int64.ofNat (n + 1))⟩

/-- The next key; none if it needs more readings. -/
def Generator.next (generator : Generator) (state : State) (readings : List Int) :
    Option (Turn State) :=
  match generator.source with
  | .clock settings =>
    (Snowflake.generate settings state.snowflake readings).map fun turn =>
      ⟨turn.key, { state with snowflake := turn.state }, turn.readings⟩
  | .count nth => some ⟨nth state.count, { state with count := state.count + 1 }, readings⟩

end Sharding.Key
