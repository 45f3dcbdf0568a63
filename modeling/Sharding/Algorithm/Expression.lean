import Sharding.Algorithm.Basic
import Sharding.Inline.Expansion
import Sharding.Text.Fields
/-!
# Expression algorithms

The target is the name that an inline expression has under the values of its columns. An expression
says nothing about a range; where ranges are allowed, every name is a target.
-/

namespace Sharding

def Value.datum : Value → Inline.Datum
  | int n => .int n
  | text s => .text s

namespace Algorithm

/-- The available name that an expression has under bindings. -/
def namedTarget (available : List String) (expression : String) (bindings : Inline.Bindings) :
    Except Fault (Option String) :=
  match Inline.expandOne expression bindings with
  | .ok name => .ok (Name.find? available name)
  | .error fault => .error (.expression fault)

/-- The available names that an expression has under each of several bindings, each once. -/
def namedTargets (available : List String) (expression : String)
    (bindings : List Inline.Bindings) : Except Fault (List String) := do
  let targets ← bindings.mapM (namedTarget available expression)
  .ok (Name.distinct (targets.filterMap id))

def rangeTargetsIfAllowed (type : String) (props : Properties) (available : List String) :
    Except Fault (List String) :=
  if props.flag "allow-range-query-with-inline-sharding" then .ok available
  else .error (.operation (.rangeQuery type))

def inline (props : Properties) : Standard where
  type := "INLINE"
  props := props
  check := discard (props.text "INLINE" "algorithm-expression")
  precise available point := do
    let expression ← props.text "INLINE" "algorithm-expression"
    namedTarget available expression [(point.column, point.value.datum)]
  range available _ := rangeTargetsIfAllowed "INLINE" props available

/-- Every way to choose one value for each column, the last column varying fastest. -/
def combinations : List (String × List Value) → List Inline.Bindings
  | [] => [[]]
  | (column, values) :: columns =>
    values.flatMap fun v => (combinations columns).map ((column, v.datum) :: ·)

def complexInline (props : Properties) : Complex where
  type := "COMPLEX_INLINE"
  props := props
  check := discard (props.text "COMPLEX_INLINE" "algorithm-expression")
  targets available columns :=
    if !columns.ranges.isEmpty then rangeTargetsIfAllowed "COMPLEX_INLINE" props available
    else
      let needed := Text.fields ((props.get? "sharding-columns").getD "")
      if needed ≠ [] ∧ needed.length ≠ columns.values.size then
        .error (.value (.columnCount "COMPLEX_INLINE" needed.length columns.values.size))
      else do
        let expression ← props.text "COMPLEX_INLINE" "algorithm-expression"
        namedTargets available expression (combinations columns.values.entries)

/-- Without an expression of its own a hint value is itself the name. -/
def hintInline (props : Properties) : Hint where
  type := "HINT_INLINE"
  props := props
  check := .ok ()
  targets available given :=
    let expression := (props.text? "algorithm-expression").getD "$\x7bvalue\x7d"
    namedTargets available expression (given.values.map fun v => [("value", v.datum)])

end Algorithm

end Sharding
