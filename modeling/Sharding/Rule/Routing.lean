import Sharding.Hints
import Sharding.Rule.Basic
/-!
# Routing

A statement on one logic table is routed to the nodes that can hold its rows. Its predicates are
divided between the levels by the columns of their strategies; a hint strategy takes the hints of
its level instead.
-/

namespace Sharding.Rule

/-- The nodes of a table under predicates that are divided between the levels already. -/
def resolve (rule : Rule) (name : String) (predicates : Level → List Predicate) :
    Except Fault (List Node) := do
  let table ← rule.table name
  table.resolve rule.defaults predicates

/-- The predicates on a table that concern a level of it. -/
def predicatesFor (rule : Rule) (table : Table) (name : String) (predicates : List Predicate)
    (hints : Hints) (level : Level) : List Predicate :=
  match table.effectiveStrategy rule.defaults level with
  | none => []
  | some strategy =>
    if strategy.isHint then hints.predicates level name
    else predicates.filter fun predicate =>
      Name.same predicate.table name && strategy.isShardingColumn predicate.column

def route (rule : Rule) (name : String) (predicates : List Predicate) (hints : Hints) :
    Except Fault (List Node) := do
  let table ← rule.table name
  table.resolve rule.defaults (rule.predicatesFor table name predicates hints)

end Sharding.Rule
