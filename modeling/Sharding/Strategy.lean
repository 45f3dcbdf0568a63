import Sharding.Catalog
import Sharding.Predicate
/-!
# Strategies

A strategy says on which columns a level of a table is sharded and by which algorithm. What it picks
is a canonical list: each available name at most once, in its first spelling, in ascending order.
-/

namespace Sharding

inductive Strategy where
  | standard (column : String) (algorithm : Algorithm.Standard)
  | complex (columns : List String) (algorithm : Algorithm.Complex)
  | hint (algorithm : Algorithm.Hint)
  | none

namespace Strategy

def noColumn : Fault := .configuration .noColumn
def noColumns : Fault := .configuration .noColumns
def noAlgorithm : Fault := .configuration .noAlgorithm

def required {α : Type} (fault : Fault) : Option α → Except Fault α
  | some a => .ok a
  | Option.none => .error fault

/-- A column and an algorithm must be there before the algorithm is made; that the column is blank
is found after. -/
def build (catalog : Catalog) : Configuration.Strategy → Except Fault Strategy
  | .standard column algorithm => do
    let column ← required noColumn column
    let algorithm ← catalog.createStandard (← required noAlgorithm algorithm)
    let column ← required noColumn (Text.content? column)
    .ok (.standard column algorithm)
  | .complex columns algorithm => do
    let columns ← required noColumns columns
    let algorithm ← catalog.createComplex (← required noAlgorithm algorithm)
    match Name.canonical (Text.fields columns) with
    | [] => .error noColumns
    | columns => .ok (.complex columns algorithm)
  | .hint algorithm => do
    let algorithm ← catalog.createHint (← required noAlgorithm algorithm)
    .ok (.hint algorithm)
  | .none => .ok .none

def columns : Strategy → List String
  | standard column _ => [column]
  | complex columns _ => columns
  | hint _ | none => []

def isShardingColumn (strategy : Strategy) (column : String) : Bool :=
  Name.isIn strategy.columns column

def isHint : Strategy → Bool
  | hint _ => true
  | standard _ _ | complex _ _ | none => false

def isNone : Strategy → Bool
  | none => true
  | standard _ _ | complex _ _ | hint _ => false

def kind : Strategy → String
  | standard _ _ => "standard"
  | complex _ _ => "complex"
  | hint _ => "hint"
  | none => "none"

/-- The targets of one predicate on the sharding column. -/
def standardTargets (column : String) (algorithm : Algorithm.Standard) (available : List String) :
    Predicate → Except Fault (List String)
  | .list table _ values => do
    let targets ← values.mapM fun v => algorithm.precise available ⟨table, column, v⟩
    .ok (targets.filterMap id)
  | .range table _ interval => algorithm.range available ⟨table, column, interval⟩
  | .hint _ _ => .ok available

/-- Adds what a predicate says about one of the columns; of two predicates of a kind on one column
the later stays. -/
def gatherColumn (columns : List String) (gathered : Algorithm.Columns) (predicate : Predicate) :
    Algorithm.Columns :=
  match columns.find? (predicate.isAbout ·), predicate with
  | some column, .list table _ values =>
    { gathered with table, values := gathered.values.insert column values }
  | some column, .range table _ interval =>
    { gathered with table, ranges := gathered.ranges.insert column interval }
  | _, _ => gathered

/-- What the predicates say about the columns together. -/
def gatherColumns (columns : List String) (predicates : List Predicate) : Algorithm.Columns :=
  predicates.foldl (gatherColumn columns) ⟨"", .empty, .empty⟩

/-- Adds the values of a hint. -/
def gatherHint (gathered : Algorithm.Given) : Predicate → Algorithm.Given
  | .hint table values => { gathered with table, values := gathered.values ++ values }
  | .list _ _ _ | .range _ _ _ => gathered

/-- All hint values together. -/
def gatherHints (predicates : List Predicate) : Algorithm.Given :=
  predicates.foldl gatherHint ⟨"", "", []⟩

/-- The names that the algorithm gives, or nothing when no predicate concerns the strategy. -/
def targets? (strategy : Strategy) (available : List String) (predicates : List Predicate) :
    Except Fault (Option (List String)) :=
  match strategy with
  | standard column algorithm =>
    match predicates.find? (·.isAbout column) with
    | some predicate => some <$> standardTargets column algorithm available predicate
    | Option.none => .ok Option.none
  | complex columns algorithm =>
    let gathered := gatherColumns columns predicates
    if gathered.values.isEmpty && gathered.ranges.isEmpty then .ok Option.none
    else some <$> algorithm.targets available gathered
  | hint algorithm =>
    let gathered := gatherHints predicates
    if gathered.values.isEmpty then .ok Option.none
    else some <$> algorithm.targets available gathered
  | none => .ok Option.none

/-- The available names among those that an algorithm gave, in canonical form. -/
def restrict (available names : List String) : List String :=
  Name.canonical (Name.findAll available names)

/-- The available names that statements with these predicates can touch. -/
def resolve (strategy : Strategy) (available : List String) (predicates : List Predicate) :
    Except Fault (List String) :=
  match strategy with
  | none => .ok available
  | _ => do
    match ← strategy.targets? available predicates with
    | some names => .ok (restrict available names)
    | Option.none => .ok (Name.canonical available)

end Strategy

end Sharding
