import Sharding.Rule.Basic
/-!
# Building rules

A rule is built from its configuration in steps, each of which can refuse: data sources, defaults,
tables, binding groups, broadcast tables.
-/

namespace Sharding.Rule

/-- The trimmed names of the data sources, each once, at least one and none of them blank. -/
def readDataSources (names : List String) : Except Fault (List String) := do
  let trimmed ← names.mapM fun name =>
    match Text.content? name with
    | some name => .ok name
    | none => .error (.argument .emptyDataSourceName)
  match Name.distinct trimmed with
  | [] => .error (.argument .noDataSources)
  | names => .ok names

/-- Without a generator of its own a rule has snowflake keys. -/
def buildDefaultKeys (catalog : Catalog) :
    Option Configuration.KeyGenerator → Except Fault (Option String × Key.Generator)
  | some config => do
    let generator ← catalog.createKeyGenerator config.algorithm
    .ok (Text.content? config.column, generator)
  | none => do
    let generator ← Key.snowflake .empty
    .ok (none, generator)

def buildDefaults (catalog : Catalog) (config : Configuration.Rule) : Except Fault Defaults := do
  let databaseStrategy ← config.databaseStrategy.mapM (Strategy.build catalog)
  let tableStrategy ← config.tableStrategy.mapM (Strategy.build catalog)
  let (keyColumn, keyGenerator) ← buildDefaultKeys catalog config.keyGenerator
  .ok ⟨databaseStrategy, tableStrategy, keyColumn, some keyGenerator⟩

/-- Builds a table after those before it, none of which has its name. -/
def addTable (catalog : Catalog) (dataSources : List String) (keyColumn : Option String)
    (tables : List Table) (config : Configuration.Table) : Except Fault (List Table) := do
  let table ← Table.build catalog dataSources keyColumn config
  if tables.any (·.name == table.name) then .error (.configuration (.duplicateTable table.name))
  else .ok (tables ++ [table])

/-- The members of a group in turn, when the tables named `bound` are in groups before it. A name
repeated within the group counts once. -/
def readMembers (tables : List Table) (bound : List String) (members : List Table) :
    List String → Except Fault (List Table)
  | [] => .ok members
  | name :: names =>
    match tables.find? fun t => Name.same t.name name with
    | none => .error (.configuration (.unknownMember name))
    | some table =>
      if members.any (·.name == table.name) then readMembers tables bound members names
      else if bound.contains table.name then .error (.configuration (.boundTwice table.name))
      else readMembers tables bound (members ++ [table]) names

/-- The groups in turn, when the tables named `bound` are in groups before them. -/
def buildGroups (tables : List Table) (bound : List String) :
    List String → Except Fault (List BindingGroup)
  | [] => .ok []
  | group :: groups => do
    let members ← readMembers tables bound [] (Text.fields group)
    let first ← BindingGroup.build members
    let rest ← buildGroups tables (bound ++ members.map (·.name)) groups
    .ok (first :: rest)

/-- The folded names of the broadcast tables, each once and none of them blank. -/
def readBroadcastTables (names : List String) : List String :=
  ((names.filterMap Text.content?).map Name.fold).eraseDups

def build (catalog : Catalog) (config : Configuration.Rule) (dataSources : List String) :
    Except Fault Rule := do
  let dataSources ← readDataSources dataSources
  let defaults ← buildDefaults catalog config
  let tables ← config.tables.foldlM (addTable catalog dataSources defaults.keyColumn) []
  let bindingGroups ← buildGroups tables [] config.bindingGroups
  .ok ⟨dataSources, tables, bindingGroups, readBroadcastTables config.broadcastTables, defaults⟩

end Sharding.Rule
