/-!
# Lines

The lines of printed text. A line feed ends a line, with the carriage return before it if there is
one; any other carriage return belongs to its line.
-/

namespace Sharding.Text

/-- The characters without a carriage return at their end. -/
def withoutReturn (cs : List Char) : List Char :=
  if cs.getLast? = some '\r' then cs.dropLast else cs

/-- The lines that a text makes when a line feed follows it. -/
def lines (s : String) : List String :=
  (s.toList.splitOn '\n').map fun cs => String.ofList (withoutReturn cs)

end Sharding.Text
