import Sharding.Inline.Evaluation
import Sharding.Inline.Fault
import Sharding.Inline.Template
/-!
# Expanding templates

A template stands for the names formed by choosing one alternative for each of its segments. They
come in the order in which the last segment varies fastest.
-/

namespace Sharding.Inline

/-- The alternatives of one segment. -/
def Segment.alternatives (bindings : Bindings) : Segment → Except Fault (List String)
  | .literal text => .ok [String.ofList text]
  | .placeholder body =>
    match evaluate body bindings with
    | .ok datum => .ok datum.render
    | .error problem => .error (.inBody (String.ofList body) problem)

/-- Every name followed by every ending. -/
def extend (names endings : List String) : List String :=
  names.flatMap fun name => endings.map fun ending => name ++ ending

/-- The names that end in `segments` and begin with one of `names`. -/
def expandFrom (template : String) (bindings : Bindings) (names : List String) :
    List Segment → Except Fault (List String)
  | [] => .ok names
  | segment :: segments => do
    let endings ← segment.alternatives bindings
    if names.length * endings.length > maxNames then .error (.tooManyNames template)
    else expandFrom template bindings (extend names endings) segments

/-- The names that a trimmed template stands for. -/
def expandTrimmed (template : String) (bindings : Bindings) : Except Fault (List String) :=
  match Template.scan template.toList with
  | none => .error (.unterminatedPlaceholder template)
  | some segments => expandFrom template bindings [""] segments

/-- The names that a template stands for. -/
def expand (template : String) (bindings : Bindings) : Except Fault (List String) :=
  expandTrimmed (Text.trim template) bindings

/-- The name that a template stands for when it is exactly one. -/
def expandOne (template : String) (bindings : Bindings) : Except Fault String := do
  match ← expand template bindings with
  | [name] => .ok name
  | names => .error (.notOneName template names.length)

/-- The names of several templates in turn. With the `count` names before them they must stay within
the limit, which holds for the expression as a whole. -/
def expandAllFrom (expression : String) (count : Nat) :
    List String → Except Fault (List String)
  | [] => .ok []
  | template :: templates => do
    let names ← expandTrimmed template []
    if count + names.length > maxNames then .error (.tooManyNames expression)
    else
      let more ← expandAllFrom expression (count + names.length) templates
      .ok (names ++ more)

/-- The names of all templates of a comma-joined expression without variables. -/
def expandAll (expression : String) : Except Fault (List String) :=
  expandAllFrom expression 0 (split expression)

end Sharding.Inline
