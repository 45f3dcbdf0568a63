import Sharding.Fault.Property
import Sharding.Inline.Fault
/-!
# Faults of a configuration

What makes a configuration malformed or contradict itself, and the questions about tables that a
configuration does not answer.
-/

namespace Sharding

inductive AlgorithmKind where
  | standard
  | complex
  | hint
  | keyGenerate
  deriving DecidableEq

def AlgorithmKind.describe : AlgorithmKind → String
  | standard => "standard sharding"
  | complex => "complex keys sharding"
  | hint => "hint sharding"
  | keyGenerate => "key generate"

inductive ConfigurationFault where
  | expression (fault : Inline.Fault)
  | property (algorithm : String) (fault : PropertyFault)
  | workerId (given : Int64)
  | vibrationOffset (given : Int64)
  | tolerance (given : Int64)
  | unknownAlgorithm (kind : AlgorithmKind) (type : String)
  | noColumn
  | noColumns
  | noAlgorithm
  | emptyTableName
  | unknownDataSource (literal : String)
  | duplicateNode (literal table : String)
  | noNodes (table : String)
  | emptyKeyColumn (table : String)
  | noKeyGenerator (table : String)
  | duplicateTable (table : String)
  | groupTooSmall (count : Nat)
  | countsDiffer (first other : String)
  | unknownMember (name : String)
  | boundTwice (table : String)
  | noActualTable (dataSource table actual : String)
  | notInGroup (table : String) (members : List String)
  | noTable (table : String)
  | noNodeOf (table : String)
  | noNodeIn (dataSource table : String)
  | noKeyStrategy (table : String)
  | stated (text : String)

def ConfigurationFault.message : ConfigurationFault → String
  | expression fault => s!"Inline expression error: {fault.message}"
  | property algorithm fault => fault.message algorithm
  | workerId given => s!"Illegal worker-id: {Text.Numeral.print given}, must be in [0, 1024)"
  | vibrationOffset given =>
    s!"Illegal max-vibration-offset: {Text.Numeral.print given}, must be in [0, 4095]"
  | tolerance given =>
    "Illegal max-tolerate-time-difference-milliseconds: " ++ Text.Numeral.print given ++
      ", must not be negative"
  | unknownAlgorithm kind type => s!"Cannot find {kind.describe} algorithm of type '{type}'"
  | noColumn => "Sharding column cannot be null"
  | noColumns => "Sharding columns cannot be null"
  | noAlgorithm => "Sharding algorithm cannot be null"
  | emptyTableName => "Logic table name cannot be empty"
  | unknownDataSource literal =>
    s!"Cannot find data source in sharding rule, invalid actual data node is: '{literal}'"
  | duplicateNode literal table => s!"Duplicate actual data node '{literal}' in table '{table}'"
  | noNodes table => s!"Actual data nodes of table '{table}' cannot be empty"
  | emptyKeyColumn table => s!"Key generate column of table '{table}' cannot be empty"
  | noKeyGenerator table => s!"No key generator configured for table '{table}'"
  | duplicateTable table => s!"Duplicate table rule for logic table '{table}'"
  | groupTooSmall count => s!"Binding table group must contain at least 2 tables, got {count}"
  | countsDiffer first other =>
    s!"Binding tables '{first}' and '{other}' must have the same actual table count" ++
      " in every data source"
  | unknownMember name => s!"Binding table '{name}' must be configured as a table rule"
  | boundTwice table => s!"Table '{table}' cannot belong to more than one binding group"
  | noActualTable dataSource table actual =>
    s!"Cannot find binding actual table, data source: '{dataSource}', logic table: '{table}'" ++
      s!", actual table: '{actual}'"
  | notInGroup table members =>
    s!"Logic table '{table}' is not in binding group [" ++ ", ".intercalate members ++ "]"
  | noTable table => s!"Cannot find table rule with logic table: '{table}'"
  | noNodeOf table => s!"Cannot find actual data node for logic table name: '{table}'"
  | noNodeIn dataSource table =>
    s!"Cannot find actual data node for data source name: '{dataSource}'" ++
      s!" and logic table name: '{table}'"
  | noKeyStrategy table => s!"Cannot find strategy for generate keys of table '{table}'"
  | stated text => text

end Sharding
