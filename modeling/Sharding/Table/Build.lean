import Sharding.Table.Basic
/-!
# Building tables

A table is built from its configuration. Its nodes are distinct, there is at least one if they are
listed, and each is in a known data source.
-/

namespace Sharding.Table

/-- The nodes that literals name, when those before them have the keys `seen`. -/
def readNodes (table : String) (dataSources : List String) (seen : List (String × String)) :
    List String → Except Fault (List Node)
  | [] => .ok []
  | literal :: literals => do
    let node ← Node.parse literal
    if !Name.isIn dataSources node.dataSource then
      .error (.configuration (.unknownDataSource literal))
    else if seen.contains node.key then
      .error (.configuration (.duplicateNode literal table))
    else
      let nodes ← readNodes table dataSources (node.key :: seen) literals
      .ok (node :: nodes)

/-- The nodes that an expression lists, at least one. -/
def listedNodes (table : String) (dataSources : List String) (expression : String) :
    Except Fault (List Node) := do
  let literals ← (Inline.expandAll expression).mapError Fault.expression
  match ← readNodes table dataSources [] literals with
  | [] => .error (.configuration (.noNodes table))
  | nodes => .ok nodes

/-- A table placed on every data source under its own name. -/
def placedNodes (table : String) (dataSources : List String) : List Node :=
  dataSources.map fun dataSource => ⟨dataSource, table⟩

/-- The column that keys fill and the generator of the table's own. -/
def buildKeys (catalog : Catalog) (table : String) (defaultColumn : Option String) :
    Option Configuration.KeyGenerator → Except Fault (Option String × Option Key.Generator)
  | none => .ok (defaultColumn, none)
  | some config =>
    match Text.content? config.column with
    | none => .error (.configuration (.emptyKeyColumn table))
    | some column => do
      let generator ← catalog.createKeyGenerator config.algorithm
      .ok (some column, some generator)

def build (catalog : Catalog) (dataSources : List String) (defaultKeyColumn : Option String)
    (config : Configuration.Table) : Except Fault Table :=
  match Text.content? config.name with
  | none => .error (.configuration .emptyTableName)
  | some name => do
    let name := Name.fold name
    let nodes ←
      match config.nodes.bind Text.content? with
      | some expression => listedNodes name dataSources expression
      | none => .ok (placedNodes name dataSources)
    let databaseStrategy ← config.databaseStrategy.mapM (Strategy.build catalog)
    let tableStrategy ← config.tableStrategy.mapM (Strategy.build catalog)
    let (keyColumn, keyGenerator) ← buildKeys catalog name defaultKeyColumn config.keyGenerator
    .ok ⟨name, nodes, databaseStrategy, tableStrategy, keyColumn, keyGenerator, false⟩

/-- The table that stands for a broadcast table. -/
def ofBroadcast (name : String) (dataSources : List String) : Table :=
  let name := Name.fold (Text.trim name)
  ⟨name, placedNodes name dataSources, none, none, none, none, true⟩

end Sharding.Table
