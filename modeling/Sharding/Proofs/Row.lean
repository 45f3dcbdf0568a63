import Sharding.Predicate
import Sharding.Proofs.Interval
import Sharding.Proofs.Name
/-!
# Rows and what predicates say of them

A row has a value in each column, whatever the spelling of its name. A predicate holds of a row, or
goes further and pins the value that the row has in its column.
-/

namespace Sharding

/-- A row, under the folded names of its columns. -/
structure Row where
  values : String → Value

def Row.at (row : Row) (column : String) : Value :=
  row.values (Name.fold column)

theorem Row.at_congr (row : Row) {a b : String} (h : Name.same a b) : row.at a = row.at b :=
  congrArg row.values (Name.same_iff.1 h)

namespace Predicate

/-- What a predicate says is true of a row. A range is about numbers: it says nothing of a value
that writes no number. -/
def Holds (row : Row) : Predicate → Prop
  | list _ column values => row.at column ∈ values
  | range _ column interval => ∀ n, (row.at column).number? = some n → interval.Admits n
  | hint _ _ => True

/-- The predicate gives the one value that a row has in its column. -/
def Pins (row : Row) (predicate : Predicate) : Prop :=
  ∃ table column, predicate = list table column [row.at column]

theorem isAbout_iff {column : String} {predicate : Predicate} :
    predicate.isAbout column ↔ predicate.isHint = false ∧ Name.same predicate.column column := by
  simp [isAbout]

end Predicate

end Sharding
