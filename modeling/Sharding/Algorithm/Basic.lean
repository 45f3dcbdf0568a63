import Sharding.Interval
import Sharding.Name
import Sharding.Properties
/-!
# Sharding algorithms

An algorithm picks names among those available, for the values of one column, for the values of
several columns together, or for hint values.
-/

namespace Sharding.Algorithm

/-- One value of one column. -/
structure Point where
  table : String
  column : String
  value : Value

/-- A range of one column. -/
structure Span where
  table : String
  column : String
  interval : Interval

/-- The values and ranges of several columns. -/
structure Columns where
  table : String
  values : Dictionary (List Value)
  ranges : Dictionary Interval

/-- Values bound to no column. -/
structure Given where
  table : String
  column : String
  values : List Value

/-- An algorithm on one column. A point has at most one target. -/
structure Standard where
  type : String
  props : Properties
  check : Except Fault Unit
  precise : List String → Point → Except Fault (Option String)
  range : List String → Span → Except Fault (List String)

/-- An algorithm on several columns together. -/
structure Complex where
  type : String
  props : Properties
  check : Except Fault Unit
  targets : List String → Columns → Except Fault (List String)

/-- An algorithm on hint values. -/
structure Hint where
  type : String
  props : Properties
  check : Except Fault Unit
  targets : List String → Given → Except Fault (List String)

/-- The name at a place, counted around the available names as often as needed. -/
def targetAt (available : List String) (place : Nat) : Option String :=
  available[place % available.length]?

/-- The integer that an algorithm needs of a value. -/
def integer (algorithm : String) (v : Value) : Except Fault Int64 :=
  match v.number? with
  | some n => .ok n
  | none => .error (.value (.notInteger algorithm v))

theorem targetAt_isSome {available : List String} (h : available ≠ []) (place : Nat) :
    (targetAt available place).isSome := by
  simp [targetAt, Nat.mod_lt place (List.length_pos_iff.2 h)]

end Sharding.Algorithm
