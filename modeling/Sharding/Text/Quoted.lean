import Sharding.Text.Extending
import Sharding.Text.Ignorable
import Sharding.Text.Unprintable
/-!
# Quoted text

Text between double quotes, as fault messages show it: what cannot be seen by itself is written as
an escape.
-/

namespace Sharding.Text

/-- The halfwidth sound marks, which extend the character before them and yet take a place of their
own beside it. -/
def soundMarks : List (Nat × Nat) :=
  [(0xFF9E, 0xFF9F)]

/-- The character shows nothing of its own: it is unprintable, ignorable, or drawn onto the one
before it. -/
def isHidden (c : Char) : Bool :=
  isUnprintable c || isIgnorable c || isExtending c && !within soundMarks c

/-- A character by its code point in hexadecimal. -/
def codePointEscape (c : Char) : String :=
  "\\u\x7b" ++ String.ofList (Nat.toDigits 16 c.toNat) ++ "\x7d"

def escape (c : Char) : String :=
  match c with
  | '\x00' => "\\0"
  | '\t' => "\\t"
  | '\r' => "\\r"
  | '\n' => "\\n"
  | '\\' => "\\\\"
  | '"' => "\\\""
  | c => if isHidden c then codePointEscape c else c.toString

def quoted (s : String) : String :=
  "\"" ++ String.join (s.toList.map escape) ++ "\""

end Sharding.Text
