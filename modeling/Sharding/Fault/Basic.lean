import Sharding.Fault.Configuration
import Sharding.Value
/-!
# Faults

Everything that can go wrong, by its cause, with the one place where it is put into words.
-/

namespace Sharding

inductive ArgumentFault where
  | emptyDataSourceName
  | noDataSources
  | notAssignment (raw : String)
  | notInterval (raw : String)
  | stated (text : String)

def ArgumentFault.message : ArgumentFault → String
  | emptyDataSourceName => "Data source name cannot be empty"
  | noDataSources => "Data source names cannot be empty"
  | notAssignment raw => s!"Expected column=value, got '{raw}'"
  | notInterval raw => s!"Expected lo..hi, got '{raw}'"
  | stated text => text

inductive FormatFault where
  | node (literal : String)
  | stated (text : String)

def FormatFault.message : FormatFault → String
  | node literal => s!"Invalid format for actual data node: '{literal}'"
  | stated text => text

inductive OperationFault where
  | rangeQuery (algorithm : String)
  | stated (text : String)

def OperationFault.message : OperationFault → String
  | rangeQuery algorithm =>
    s!"Range sharding is not supported by {algorithm}" ++
      " unless 'allow-range-query-with-inline-sharding' is true"
  | stated text => text

inductive ValueFault where
  | notInteger (algorithm : String) (value : Value)
  | boundNotInteger (algorithm : String) (bound : Value)
  | columnCount (algorithm : String) (needed found : Nat)
  | stated (text : String)

def ValueFault.message : ValueFault → String
  | notInteger algorithm value =>
    s!"{algorithm} sharding algorithm requires an integer value, got '{value.display}'"
  | boundNotInteger algorithm bound =>
    s!"{algorithm} sharding algorithm requires integer range bounds, got '{bound.display}'"
  | columnCount algorithm needed found =>
    s!"{algorithm} needs {needed} sharding columns, but only found {found}"
  | stated text => text

inductive Fault where
  | configuration (cause : ConfigurationFault)
  | argument (cause : ArgumentFault)
  | format (cause : FormatFault)
  | operation (cause : OperationFault)
  | value (cause : ValueFault)
  | clockBackwards (last current : Int)
  | io (text : String)
  | serialization (text : String)

namespace Fault

inductive Kind where
  | configuration
  | argument
  | format
  | operation
  | value
  | clockBackwards
  | io
  | serialization
  deriving DecidableEq

def kind : Fault → Kind
  | configuration _ => .configuration
  | argument _ => .argument
  | format _ => .format
  | operation _ => .operation
  | value _ => .value
  | clockBackwards _ _ => .clockBackwards
  | io _ => .io
  | serialization _ => .serialization

def message : Fault → String
  | configuration cause => s!"Configuration error: {cause.message}"
  | argument cause => s!"Illegal argument: {cause.message}"
  | format cause => s!"Format error: {cause.message}"
  | operation cause => s!"Unsupported operation: {cause.message}"
  | value cause => s!"Invalid sharding value: {cause.message}"
  | clockBackwards last current =>
    s!"Clock is moving backwards, last time is {last} milliseconds, " ++
      s!"current time is {current} milliseconds"
  | io text => s!"IO error: {text}"
  | serialization text => s!"Serialization error: {text}"

/-- A fault of a name expression is one of the configuration that holds it. -/
def expression (fault : Inline.Fault) : Fault :=
  configuration (.expression fault)

/-- A fault in the properties of an algorithm is one of the configuration that holds them. -/
def property (algorithm : String) (fault : PropertyFault) : Fault :=
  configuration (.property algorithm fault)

end Fault

end Sharding
