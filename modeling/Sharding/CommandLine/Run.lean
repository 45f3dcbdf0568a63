import Sharding.CommandLine.Arguments
import Sharding.Document.Reader
import Sharding.Rule.Build
import Sharding.Rule.Routing
import Sharding.Text.Lines
/-!
# Running the command line

Routes one statement on a table of a rule document, and prints the nodes it touches.
-/

namespace Sharding.CommandLine

def versionText : String := "shard-route 0.1.0"

/-- What was printed, each text with a line end after it, and the fault that ended the run if one
did. -/
structure Report where
  printed : List String
  fault : Option Fault

/-- An integer where the text is a numeral, else the text. -/
def readValueText (raw : String) : Value :=
  match Text.Numeral.parse? raw with
  | some n => .int n
  | none => .text raw

/-- A column and what is said of it, the column not empty. -/
def readAssignment (raw : String) : Except Fault (String × String) :=
  match Text.sides? "=" raw with
  | some (column, said) =>
    if column = "" then .error (.argument (.notAssignment raw)) else .ok (column, said)
  | none => .error (.argument (.notAssignment raw))

def readEnd (raw : String) : Bound :=
  if raw = "" then .unbounded else .included (readValueText raw)

/-- Two ends with two points between them; an empty end is infinite. -/
def readInterval (raw : String) : Except Fault Interval :=
  match Text.sides? ".." raw with
  | some (lower, upper) => .ok ⟨readEnd lower, readEnd upper⟩
  | none => .error (.argument (.notInterval raw))

def readEquality (table raw : String) : Except Fault Predicate := do
  let (column, value) ← readAssignment raw
  .ok (.oneOf table column [readValueText value])

def readRange (table raw : String) : Except Fault Predicate := do
  let (column, range) ← readAssignment raw
  let interval ← readInterval range
  .ok (.range table column interval)

def hints (arguments : Arguments) : Hints :=
  let add (level : Level) (hints : Hints) (raw : String) :=
    hints.add level arguments.table (readValueText raw)
  arguments.tableHints.foldl (add .table) (arguments.databaseHints.foldl (add .database) .empty)

/-- The rule of the document under a path. -/
def load (readFile : String → Option String) (path : String) : Except Fault Rule :=
  match readFile path with
  | none => .error (.io path)
  | some content =>
    match Document.read? content with
    | none => .error (.serialization path)
    | some document => Rule.build .builtIn document.rule document.dataSources

/-- The nodes that the statement touches. -/
def route (rule : Rule) (arguments : Arguments) : Except Fault (List Node) := do
  let equalities ← arguments.values.mapM (readEquality arguments.table)
  let ranges ← arguments.ranges.mapM (readRange arguments.table)
  rule.route arguments.table (equalities ++ ranges) (hints arguments)

/-- The text of one new key of the table. -/
def keyText (rule : Rule) (readings : List Int) (table : String) : Except Fault String :=
  match rule.generateKey .empty readings table with
  | none => .error (.io "clock")
  | some turn => turn.key.map fun key => "key=" ++ Text.Numeral.print key

/-- Nodes are printed before a key is generated, so they stay when that fails. -/
def run (readFile : String → Option String) (readings : List Int) (arguments : Arguments) :
    Report :=
  match load readFile arguments.config with
  | .error fault => ⟨[], some fault⟩
  | .ok rule =>
    match route rule arguments with
    | .error fault => ⟨[], some fault⟩
    | .ok nodes =>
      let shown := nodes.map Node.display
      if arguments.generateKey then
        match keyText rule readings arguments.table with
        | .ok key => ⟨shown ++ [key], none⟩
        | .error fault => ⟨shown, some fault⟩
      else ⟨shown, none⟩

/-- What is printed, the status of the process, and the fault it reports. -/
structure Outcome where
  printed : List String
  status : Nat
  fault : Option Fault

/-- The lines of all that is printed. A name can hold a line end, so one node can take several. -/
def Outcome.lines (outcome : Outcome) : List String :=
  outcome.printed.flatMap Text.lines

def usage : List String :=
  ["Usage: shard-route [OPTIONS] --config <CONFIG> --table <TABLE>"]

def outcome (readFile : String → Option String) (readings : List Int) (arguments : List String) :
    Outcome :=
  match Request.ofArguments arguments with
  | .rejected => ⟨[], 2, none⟩
  | .version => ⟨[versionText], 0, none⟩
  | .help => ⟨usage, 0, none⟩
  | .route arguments =>
    let report := run readFile readings arguments
    ⟨report.printed, if report.fault.isSome then 1 else 0, report.fault⟩

end Sharding.CommandLine
