import Sharding.Text.CodePoints
/-!
# Blank text

The characters with the property White_Space, and text without them at its ends.
-/

namespace Sharding.Text

/-- The code points with the property White_Space. -/
def spaces : List (Nat × Nat) :=
  [(0x9, 0xD), (0x20, 0x20), (0x85, 0x85), (0xA0, 0xA0), (0x1680, 0x1680), (0x2000, 0x200A),
   (0x2028, 0x2029), (0x202F, 0x202F), (0x205F, 0x205F), (0x3000, 0x3000)]

def isSpace (c : Char) : Bool :=
  within spaces c

/-- The text without the space at both ends. -/
def trim (s : String) : String :=
  String.ofList ((s.toList.dropWhile isSpace).reverse.dropWhile isSpace).reverse

/-- Nothing but space, or nothing at all. -/
def isBlank (s : String) : Bool :=
  s.toList.all isSpace

/-- The trimmed text, unless nothing is left of it. -/
def content? (s : String) : Option String :=
  if isBlank s then none else some (trim s)

end Sharding.Text
