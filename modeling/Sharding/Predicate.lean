import Sharding.Interval
import Sharding.Name
/-!
# Predicates

What a statement says about one table: values or a range of one of its columns, or values that are
bound to no column.
-/

namespace Sharding

inductive Predicate where
  | list (table column : String) (values : List Value)
  | range (table column : String) (interval : Interval)
  | hint (table : String) (values : List Value)
  deriving DecidableEq

namespace Predicate

/-- The column has one of the values; a repeated value counts once. -/
def oneOf (table column : String) (values : List Value) : Predicate :=
  list table column values.eraseDups

/-- The statement was given these values; a repeated value counts once. -/
def hinted (table : String) (values : List Value) : Predicate :=
  hint table values.eraseDups

def table : Predicate → String
  | list table _ _ => table
  | range table _ _ => table
  | hint table _ => table

/-- The column that a predicate is about, empty for a hint. -/
def column : Predicate → String
  | list _ column _ => column
  | range _ column _ => column
  | hint _ _ => ""

def isHint : Predicate → Bool
  | hint _ _ => true
  | list _ _ _ | range _ _ _ => false

/-- A hint is about no column. -/
def isAbout (column : String) (predicate : Predicate) : Bool :=
  !predicate.isHint && Name.same predicate.column column

end Predicate

end Sharding
