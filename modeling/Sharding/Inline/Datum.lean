import Sharding.Text.Numeral
import Sharding.Text.Quoted
/-!
# Data of placeholder bodies

A placeholder body has a datum as its value: an integer, a text, or a list of data. A list stands
for the alternatives of its place in a name.
-/

namespace Sharding.Inline

inductive Datum where
  | int (n : Int64)
  | text (s : String)
  | list (items : List Datum)
  deriving Inhabited

namespace Datum

/-- The alternatives that a datum stands for, nested lists flattened in order. -/
def render : Datum → List String
  | .int n => [Text.Numeral.print n]
  | .text s => [s]
  | .list items => items.flatMap render

/-- The datum as fault messages show it. -/
def describe : Datum → String
  | .int n => s!"Int({Text.Numeral.print n})"
  | .text s => s!"Str({Text.quoted s})"
  | .list items => "List([" ++ ", ".intercalate (items.map describe) ++ "])"

end Datum

/-- The values of the variables in scope. -/
abbrev Bindings := List (String × Datum)

end Sharding.Inline
