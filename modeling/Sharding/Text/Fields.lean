import Sharding.Text.Blank
/-!
# Fields

Texts that list fields between commas, or that a separator cuts in two.
-/

namespace Sharding.Text

/-- What stands between the commas, in order. -/
def pieces (s : String) : List String :=
  (s.toList.splitOn ',').map String.ofList

/-- The trimmed pieces that are not blank. -/
def fields (s : String) : List String :=
  (pieces s).filterMap content?

/-- What stands before the first separator and what stands after it. -/
def splitFirst (separator : List Char) : List Char → Option (List Char × List Char)
  | [] => none
  | c :: cs =>
    if separator.isPrefixOf (c :: cs) then some ([], (c :: cs).drop separator.length)
    else (splitFirst separator cs).map fun (before, after) => (c :: before, after)

/-- The two trimmed sides of the first separator. -/
def sides? (separator : String) (s : String) : Option (String × String) :=
  (splitFirst separator.toList s.toList).map fun (before, after) =>
    (trim (String.ofList before), trim (String.ofList after))

end Sharding.Text
