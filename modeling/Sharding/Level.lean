import Sharding.Node
/-!
# Levels

A statement is narrowed twice, on the data sources of a table and on its physical tables.
-/

namespace Sharding

inductive Level where
  | database
  | table
  deriving DecidableEq

/-- The name that a node has at a level. -/
def Node.at (node : Node) : Level → String
  | .database => node.dataSource
  | .table => node.table

end Sharding
