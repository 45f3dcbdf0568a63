import Sharding.Level
import Sharding.Predicate
/-!
# Hints

Values given beside a statement, for one table at one level. At each level a table has each of its
values once, in the order in which they were first given.
-/

namespace Sharding

structure Hint where
  level : Level
  table : String
  value : Value
  deriving DecidableEq

/-- The hints of a statement, under folded table names. -/
structure Hints where
  given : List Hint

namespace Hints

def empty : Hints := ⟨[]⟩

def isEmpty (hints : Hints) : Bool :=
  hints.given.isEmpty

def add (hints : Hints) (level : Level) (table : String) (value : Value) : Hints :=
  let hint : Hint := ⟨level, Name.fold table, value⟩
  if hints.given.contains hint then hints else ⟨hints.given ++ [hint]⟩

def values (hints : Hints) (level : Level) (table : String) : List Value :=
  let own := hints.given.filter fun hint => hint.level == level && hint.table == Name.fold table
  own.map (·.value)

/-- The values of a table at a level as one predicate, or none if there are no values. -/
def predicates (hints : Hints) (level : Level) (table : String) : List Predicate :=
  match hints.values level table with
  | [] => []
  | values => [.hinted table values]

end Hints

end Sharding
