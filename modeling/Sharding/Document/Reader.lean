import Sharding.Configuration
import Sharding.Document.Json
/-!
# Reading configurations

A record is read from an object with a member for each field, or from an array of its fields in
order. Members that are no fields are passed over; a field given twice is refused.
-/

namespace Sharding.Document.Reader

def text : Json → Option String
  | .string pieces => String.ofList <$> textOf pieces
  | _ => none

def list {α : Type} (read : Json → Option α) : Json → Option (List α)
  | .array items => items.mapM read
  | _ => none

/-- Null for what is absent. -/
def optional {α : Type} (read : Json → Option α) : Json → Option (Option α)
  | .null => some none
  | json => some <$> read json

/-- The members of an object under their keys as texts. -/
def keyed (members : List (List Piece × Json)) : Option (List (String × Json)) :=
  members.mapM fun (key, json) => (textOf key).map fun key => (String.ofList key, json)

/-- The fields that a record gives. In an array at least the first `needed` are there, and no more
than there are. -/
def record (fields : List String) (needed : Nat) : Json → Option (List (String × Json))
  | .object members => do
    let members ← keyed members
    let given := members.filter fun member => fields.contains member.1
    if (given.map (·.1)).Nodup then some given else none
  | .array items =>
    if needed ≤ items.length ∧ items.length ≤ fields.length then some (fields.zip items)
    else none
  | _ => none

/-- A field that has to be given. -/
def required {α : Type} (given : List (String × Json)) (field : String)
    (read : Json → Option α) : Option α :=
  (given.lookup field).bind read

/-- A field that stands for `absent` if it is not given. -/
def defaulted {α : Type} (given : List (String × Json)) (field : String) (absent : α)
    (read : Json → Option α) : Option α :=
  match given.lookup field with
  | some json => read json
  | none => some absent

/-- An object of texts, in which the later of two members with one key stays. -/
def properties : Json → Option Properties
  | .object members => do
    let members ← keyed members
    let entries ← members.mapM fun (key, json) => (text json).map fun value => (key, value)
    some (.ofList entries)
  | _ => none

def algorithm (json : Json) : Option Configuration.Algorithm := do
  let given ← record ["type", "props"] 1 json
  let type ← required given "type" text
  let props ← defaulted given "props" .empty properties
  some ⟨type, props⟩

/-- The strategy of a kind, from what stands beside its kind. -/
def strategyOfKind (kind : String) (json : Json) : Option Configuration.Strategy :=
  match kind with
  | "standard" => do
    let given ← record ["sharding_column", "algorithm"] 2 json
    let column ← defaulted given "sharding_column" none (optional text)
    let algorithm ← defaulted given "algorithm" none (optional algorithm)
    some (.standard column algorithm)
  | "complex" => do
    let given ← record ["sharding_columns", "algorithm"] 2 json
    let columns ← defaulted given "sharding_columns" none (optional text)
    let algorithm ← defaulted given "algorithm" none (optional algorithm)
    some (.complex columns algorithm)
  | "hint" => do
    let given ← record ["algorithm"] 1 json
    let algorithm ← defaulted given "algorithm" none (optional algorithm)
    some (.hint algorithm)
  | "none" =>
    match json with
    | .array (_ :: _) => none
    | _ => some .none
  | _ => none

/-- The key of the member that tells the kind of a strategy. -/
def isKindKey (key : List Piece) : Bool :=
  textOf key == some "type".toList

/-- Containers are nested at most so deep where a strategy is read. -/
def maxDepth : Nat := 127

/-- A strategy that stands inside `outside` containers. All that is written in it has to be sound,
also what is then passed over. -/
def strategy (outside : Nat) (json : Json) : Option Configuration.Strategy :=
  if !json.isSound || maxDepth < outside + json.depth then none
  else
    match json with
    | .object members =>
      match members.filter fun member => isKindKey member.1 with
      | [(_, kind)] => do
        let kind ← text kind
        strategyOfKind kind (.object (members.filter fun member => !isKindKey member.1))
      | _ => none
    | .array (kind :: fields) => do
      let kind ← text kind
      strategyOfKind kind (.array fields)
    | _ => none

def keyGenerator (json : Json) : Option Configuration.KeyGenerator := do
  let given ← record ["column", "algorithm"] 2 json
  let column ← required given "column" text
  let algorithm ← required given "algorithm" algorithm
  some ⟨column, algorithm⟩

def tableFields : List String :=
  ["logic_table", "actual_data_nodes", "database_strategy", "table_strategy", "key_generator"]

/-- A table; four containers stand around its strategies. -/
def table (json : Json) : Option Configuration.Table := do
  let given ← record tableFields 1 json
  let name ← required given "logic_table" text
  let nodes ← defaulted given "actual_data_nodes" none (optional text)
  let databaseStrategy ← defaulted given "database_strategy" none (optional (strategy 4))
  let tableStrategy ← defaulted given "table_strategy" none (optional (strategy 4))
  let keyGenerator ← defaulted given "key_generator" none (optional keyGenerator)
  some ⟨name, nodes, databaseStrategy, tableStrategy, keyGenerator⟩

def ruleFields : List String :=
  ["tables", "binding_table_groups", "broadcast_tables", "default_database_strategy",
   "default_table_strategy", "default_key_generator"]

/-- A rule; two containers stand around its strategies. -/
def rule (json : Json) : Option Configuration.Rule := do
  let given ← record ruleFields 0 json
  let tables ← defaulted given "tables" [] (list table)
  let bindingGroups ← defaulted given "binding_table_groups" [] (list text)
  let broadcastTables ← defaulted given "broadcast_tables" [] (list text)
  let databaseStrategy ← defaulted given "default_database_strategy" none (optional (strategy 2))
  let tableStrategy ← defaulted given "default_table_strategy" none (optional (strategy 2))
  let keyGenerator ← defaulted given "default_key_generator" none (optional keyGenerator)
  some ⟨tables, bindingGroups, broadcastTables, databaseStrategy, tableStrategy, keyGenerator⟩

def document (json : Json) : Option Configuration.Document := do
  let given ← record ["data_source_names", "rule"] 2 json
  let dataSources ← required given "data_source_names" (list text)
  let rule ← required given "rule" rule
  some ⟨dataSources, rule⟩

end Reader

/-- The configuration that a text holds. -/
def read? (s : String) : Option Configuration.Document :=
  (Json.parse s).bind Reader.document

def readStrategy? (s : String) : Option Configuration.Strategy :=
  (Json.parse s).bind (Reader.strategy 0)

def readAlgorithm? (s : String) : Option Configuration.Algorithm :=
  (Json.parse s).bind Reader.algorithm

end Sharding.Document
