import Sharding.Inline.Problem
import Sharding.Text.Alphabetic
import Sharding.Text.Blank
import Sharding.Text.Numeric
/-!
# Reading tokens

A body is cut into tokens from left to right, each as long as it can be; space between them is
skipped.
-/

namespace Sharding.Inline.Token

def startsWord (c : Char) : Bool :=
  Text.isAlphabetic c || c == '_'

def continuesWord (c : Char) : Bool :=
  Text.isAlphabetic c || Text.isNumeric c || c == '_'

/-- The content of a string after its opening quote, and how many characters it takes with the
closing one. A backslash makes the next character part of the content, whatever it is. -/
def stringContent? (quote : Char) : List Char → Option (List Char × Nat)
  | [] => none
  | ['\\'] => none
  | '\\' :: c :: cs => (stringContent? quote cs).map fun (content, size) => (c :: content, size + 2)
  | c :: cs =>
    if c = quote then some ([], 1)
    else (stringContent? quote cs).map fun (content, size) => (c :: content, size + 1)

/-- The integer that a run of digits writes. -/
def ofDigits (digits : List Char) : Except Problem Token :=
  match (Text.Numeral.magnitude digits).bind fun n => Text.Numeral.fit n with
  | some n => .ok (int n)
  | none => .error (.literalOutOfRange (String.ofList digits))

/-- All tokens of a body, or the first thing in it that is none. -/
def readAll : List Char → Except Problem (List Token)
  | [] => .ok []
  | '.' :: '.' :: cs => (dots :: ·) <$> readAll cs
  | c :: cs =>
    if Text.isSpace c then readAll cs
    else if c.isDigit then do
      let token ← ofDigits (c :: cs.takeWhile Char.isDigit)
      (token :: ·) <$> readAll (cs.drop (cs.takeWhile Char.isDigit).length)
    else if startsWord c then
      (word (String.ofList (c :: cs.takeWhile continuesWord)) :: ·) <$>
        readAll (cs.drop (cs.takeWhile continuesWord).length)
    else if c = '\'' ∨ c = '"' then
      match stringContent? c cs with
      | none => .error .unterminatedString
      | some (content, size) => (text (String.ofList content) :: ·) <$> readAll (cs.drop size)
    else
      match ofSymbol? c with
      | some token => (token :: ·) <$> readAll cs
      | none => .error (.unexpectedCharacter c)
termination_by cs => cs.length

end Sharding.Inline.Token
