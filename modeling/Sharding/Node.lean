import Sharding.Fault.Basic
import Sharding.Name
/-!
# Data nodes

A data node is a physical table in a data source. Nodes are told apart by their folded names.
-/

namespace Sharding

structure Node where
  dataSource : String
  table : String
  deriving DecidableEq

namespace Node

/-- What two nodes share exactly when they are the same node. -/
def key (node : Node) : String × String :=
  (Name.fold node.dataSource, Name.fold node.table)

def same (a b : Node) : Bool :=
  a.key == b.key

/-- By folded data source, then by folded table. -/
def atMost (a b : Node) : Bool :=
  a.key.1 < b.key.1 || a.key.1 == b.key.1 && a.key.2 ≤ b.key.2

/-- Nodes that are the same keep their order. -/
def sort (nodes : List Node) : List Node :=
  nodes.mergeSort atMost

def isInDataSource (node : Node) (dataSource : String) : Bool :=
  Name.same node.dataSource dataSource

def display (node : Node) : String :=
  node.dataSource ++ "." ++ node.table

/-- Reads a data source and a table with one point between them, neither of them blank. -/
def parse (literal : String) : Except Fault Node :=
  match literal.toList.splitOn '.' with
  | [dataSource, table] =>
    match Text.content? (String.ofList dataSource), Text.content? (String.ofList table) with
    | some dataSource, some table => .ok ⟨dataSource, table⟩
    | _, _ => .error (.format (.node literal))
  | _ => .error (.format (.node literal))

end Node

end Sharding
