import Sharding.Configuration
import Sharding.Document.Tree
/-!
# Writing configurations

Every field is written, in one order, and null stands for what is absent.
-/

namespace Sharding.Document.Writer

def optional {α : Type} (write : α → Tree) : Option α → Tree
  | some a => write a
  | none => .null

def texts (names : List String) : Tree :=
  .list (names.map .text)

def algorithm (config : Configuration.Algorithm) : Tree :=
  .record [("type", .text config.type),
    ("props", .record (config.props.entries.map fun (key, value) => (key, .text value)))]

def strategy : Configuration.Strategy → Tree
  | .standard column config =>
    .record [("type", .text "standard"), ("sharding_column", optional .text column),
      ("algorithm", optional algorithm config)]
  | .complex columns config =>
    .record [("type", .text "complex"), ("sharding_columns", optional .text columns),
      ("algorithm", optional algorithm config)]
  | .hint config => .record [("type", .text "hint"), ("algorithm", optional algorithm config)]
  | .none => .record [("type", .text "none")]

def keyGenerator (config : Configuration.KeyGenerator) : Tree :=
  .record [("column", .text config.column), ("algorithm", algorithm config.algorithm)]

def table (config : Configuration.Table) : Tree :=
  .record [("logic_table", .text config.name), ("actual_data_nodes", optional .text config.nodes),
    ("database_strategy", optional strategy config.databaseStrategy),
    ("table_strategy", optional strategy config.tableStrategy),
    ("key_generator", optional keyGenerator config.keyGenerator)]

def rule (config : Configuration.Rule) : Tree :=
  .record [("tables", .list (config.tables.map table)),
    ("binding_table_groups", texts config.bindingGroups),
    ("broadcast_tables", texts config.broadcastTables),
    ("default_database_strategy", optional strategy config.databaseStrategy),
    ("default_table_strategy", optional strategy config.tableStrategy),
    ("default_key_generator", optional keyGenerator config.keyGenerator)]

def document (config : Configuration.Document) : Tree :=
  .record [("data_source_names", texts config.dataSources), ("rule", rule config.rule)]

end Writer

/-- The text that holds a configuration. -/
def print (config : Configuration.Document) : String :=
  (Writer.document config).pretty

def printStrategy (config : Configuration.Strategy) : String :=
  (Writer.strategy config).pretty

def printAlgorithm (config : Configuration.Algorithm) : String :=
  (Writer.algorithm config).pretty

end Sharding.Document
