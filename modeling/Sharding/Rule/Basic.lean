import Sharding.Binding
import Sharding.Table.Build
/-!
# Rules

A rule holds the data sources, the logic tables, the groups of bound tables and the broadcast tables
of a sharded database, with the defaults of its tables.
-/

namespace Sharding

structure Rule where
  dataSources : List String
  tables : List Table
  bindingGroups : List BindingGroup
  broadcastTables : List String
  defaults : Defaults

namespace Rule

def findTable? (rule : Rule) (table : String) : Option Table :=
  rule.tables.find? fun t => Name.same t.name table

def isBroadcast (rule : Rule) (table : String) : Bool :=
  Name.isIn rule.broadcastTables table

/-- The table of a name; a broadcast table that is not configured is on every data source. -/
def table (rule : Rule) (name : String) : Except Fault Table :=
  match rule.findTable? name with
  | some table => .ok table
  | none =>
    if rule.isBroadcast name then .ok (.ofBroadcast name rule.dataSources)
    else .error (.configuration (.noTable name))

def findByActual? (rule : Rule) (actual : String) : Option Table :=
  rule.tables.find? (·.hasActualTable actual)

/-- The names that belong to configured tables, as they were given. -/
def shardedAmong (rule : Rule) (names : List String) : List String :=
  names.filter fun name => (rule.findTable? name).isSome

/-- Some name belongs to a configured or a broadcast table. -/
def knowsAny (rule : Rule) (names : List String) : Bool :=
  names.any fun name => (rule.findTable? name).isSome || rule.isBroadcast name

/-- Every physical table of the configured tables, each once. -/
def actualTables (rule : Rule) : List String :=
  Name.distinct (rule.tables.flatMap (·.names .table))

def findGroup? (rule : Rule) (table : String) : Option BindingGroup :=
  rule.bindingGroups.find? (·.contains table)

/-- There are names, and all belong to the group of the first. -/
def allBound (rule : Rule) (names : List String) : Bool :=
  match names with
  | [] => false
  | first :: _ =>
    match rule.findGroup? first with
    | none => false
    | some group => names.all fun name => (rule.findTable? name).isSome && group.contains name

/-- There are names, and all belong to broadcast tables. -/
def allBroadcast (rule : Rule) (names : List String) : Bool :=
  !names.isEmpty && names.all rule.isBroadcast

/-- The column drives a strategy of the table. -/
def isShardingColumn (rule : Rule) (column table : String) : Bool :=
  match rule.findTable? table with
  | none => false
  | some t => [Level.database, Level.table].any fun level =>
    (t.effectiveStrategy rule.defaults level).any (·.isShardingColumn column)

/-- The first node of a table. -/
def node (rule : Rule) (table : String) : Except Fault Node := do
  let t ← rule.table table
  match t.nodes.head? with
  | some node => .ok node
  | none => .error (.configuration (.noNodeOf table))

/-- The first node of a table in a data source of the rule. -/
def nodeIn (rule : Rule) (dataSource table : String) : Except Fault Node := do
  let t ← rule.table table
  let found := t.nodes.find? fun node =>
    node.isInDataSource dataSource && Name.isIn rule.dataSources node.dataSource
  match found with
  | some node => .ok node
  | none => .error (.configuration (.noNodeIn dataSource table))

def keyColumn? (rule : Rule) (table : String) : Option String :=
  (rule.findTable? table).bind (·.keyColumn)

/-- The next key of a configured table. -/
def generateKey (rule : Rule) (memory : Key.Memory) (readings : List Int) (table : String) :
    Option (Key.Turn Key.Memory) :=
  match rule.findTable? table with
  | some t => t.generateKey rule.defaults memory readings
  | none => some ⟨.error (.configuration (.noKeyStrategy table)), memory, readings⟩

end Rule

end Sharding
