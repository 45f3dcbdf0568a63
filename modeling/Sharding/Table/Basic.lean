import Sharding.Key.Memory
import Sharding.Level
import Sharding.Strategy
/-!
# Tables

A logic table stands for its nodes, in their configured order.
-/

namespace Sharding

/-- A logic table under its folded name. A broadcast table is never narrowed. -/
structure Table where
  name : String
  nodes : List Node
  databaseStrategy : Option Strategy
  tableStrategy : Option Strategy
  keyColumn : Option String
  keyGenerator : Option Key.Generator
  broadcast : Bool

/-- What tables fall back on where they have nothing of their own. -/
structure Defaults where
  databaseStrategy : Option Strategy
  tableStrategy : Option Strategy
  keyColumn : Option String
  keyGenerator : Option Key.Generator

def Defaults.strategy (defaults : Defaults) : Level → Option Strategy
  | .database => defaults.databaseStrategy
  | .table => defaults.tableStrategy

namespace Table

def strategy (table : Table) : Level → Option Strategy
  | .database => table.databaseStrategy
  | .table => table.tableStrategy

/-- The strategy of the table itself, else the default one. -/
def effectiveStrategy (table : Table) (defaults : Defaults) (level : Level) : Option Strategy :=
  (table.strategy level).or (defaults.strategy level)

/-- The names of the nodes at a level, each once. -/
def names (table : Table) (level : Level) : List String :=
  Name.distinct (table.nodes.map (·.at level))

/-- The physical tables in a data source, in configured order. -/
def actualTables (table : Table) (dataSource : String) : List String :=
  (table.nodes.filter (·.isInDataSource dataSource)).map (·.table)

/-- The nodes by data source, under the first spelling of its name. -/
def groups (table : Table) : List (String × List Node) :=
  (table.names .database).map fun dataSource =>
    (dataSource, (table.actualTables dataSource).map fun actual => ⟨dataSource, actual⟩)

/-- The place of a physical table among those in its data source. -/
def placeOf (table : Table) (dataSource actual : String) : Option Nat :=
  (table.actualTables dataSource).findIdx? (Name.same · actual)

def hasActualTable (table : Table) (actual : String) : Bool :=
  table.nodes.any fun node => Name.same node.table actual

/-- The names at a level that remain under the predicates. -/
def narrow (table : Table) (defaults : Defaults) (level : Level) (predicates : List Predicate) :
    Except Fault (List String) :=
  match table.effectiveStrategy defaults level with
  | some strategy => strategy.resolve (table.names level) predicates
  | none => .ok (table.names level)

/-- The nodes whose data source and whose table both remain, in configured order. -/
def resolve (table : Table) (defaults : Defaults) (predicates : Level → List Predicate) :
    Except Fault (List Node) :=
  if table.broadcast then .ok table.nodes
  else do
    let dataSources ← table.narrow defaults .database (predicates .database)
    let tables ← table.narrow defaults .table (predicates .table)
    let dataSources := dataSources.map Name.fold
    let tables := tables.map Name.fold
    .ok (table.nodes.filter fun node =>
      dataSources.contains (Name.fold node.dataSource) && tables.contains (Name.fold node.table))

/-- The next key of the generator of the table, else of the default one. -/
def generateKey (table : Table) (defaults : Defaults) (memory : Key.Memory)
    (readings : List Int) : Option (Key.Turn Key.Memory) :=
  match table.keyGenerator, defaults.keyGenerator with
  | some generator, _ => memory.next (some table.name) generator readings
  | none, some generator => memory.next none generator readings
  | none, none => some ⟨.error (.configuration (.noKeyGenerator table.name)), memory, readings⟩

end Table

end Sharding
