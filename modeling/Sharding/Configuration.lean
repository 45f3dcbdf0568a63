import Sharding.Properties
/-!
# Configurations

What a rule is built from. Columns and algorithms of a strategy may be absent here, so that an
incomplete configuration can be held and then refused.
-/

namespace Sharding.Configuration

/-- An algorithm by its type and its properties. -/
structure Algorithm where
  type : String
  props : Properties
  deriving DecidableEq

inductive Strategy where
  | standard (column : Option String) (algorithm : Option Algorithm)
  | complex (columns : Option String) (algorithm : Option Algorithm)
  | hint (algorithm : Option Algorithm)
  | none
  deriving DecidableEq

/-- The column that generated keys fill, and how they are generated. -/
structure KeyGenerator where
  column : String
  algorithm : Algorithm
  deriving DecidableEq

/-- A logic table. Without an expression for its nodes it is placed on every data source under its
own name. -/
structure Table where
  name : String
  nodes : Option String
  databaseStrategy : Option Strategy
  tableStrategy : Option Strategy
  keyGenerator : Option KeyGenerator
  deriving DecidableEq

/-- Each binding group lists its tables between commas. -/
structure Rule where
  tables : List Table
  bindingGroups : List String
  broadcastTables : List String
  databaseStrategy : Option Strategy
  tableStrategy : Option Strategy
  keyGenerator : Option KeyGenerator
  deriving DecidableEq

/-- The names of all data sources, and the rule on them. -/
structure Document where
  dataSources : List String
  rule : Rule
  deriving DecidableEq

def Algorithm.ofType (type : String) : Algorithm := ⟨type, .empty⟩

def Algorithm.withProperty (algorithm : Algorithm) (key value : String) : Algorithm :=
  { algorithm with props := algorithm.props.insert key value }

def Table.ofName (name : String) (nodes : Option String) : Table :=
  ⟨name, nodes, .none, .none, .none⟩

def Rule.empty : Rule := ⟨[], [], [], .none, .none, .none⟩

namespace Rule

def addTable (rule : Rule) (table : Table) : Rule :=
  { rule with tables := rule.tables ++ [table] }

def addBindingGroup (rule : Rule) (group : String) : Rule :=
  { rule with bindingGroups := rule.bindingGroups ++ [group] }

def addBroadcastTable (rule : Rule) (table : String) : Rule :=
  { rule with broadcastTables := rule.broadcastTables ++ [table] }

end Rule

end Sharding.Configuration
