import Sharding.Inline.Datum
import Sharding.Inline.Operator
import Sharding.Inline.Token.Basic
/-!
# Problems of a placeholder body

What can be wrong with the body of a placeholder: its words, its grammar or its values.
-/

namespace Sharding.Inline

inductive Problem where
  | literalOutOfRange (digits : String)
  | unterminatedString
  | unexpectedCharacter (c : Char)
  | trailingInput
  | expected (wanted : Token) (found : Option Token)
  | expectedSeparator (found : Option Token)
  | unexpectedToken (found : Option Token)
  | boundsNotIntegers (first last : Datum)
  | rangeTooLarge (first last : Int64)
  | negationOverflow
  | cannotNegate (datum : Datum)
  | unbound (name : String)
  | divisionByZero
  | overflow (left : Int64) (op : Operator) (right : Int64)
  | cannotApply (op : Operator) (left right : Datum)

/-- The wording of a problem with the body `source`. -/
def Problem.message (source : String) : Problem → String
  | literalOutOfRange digits => s!"integer literal out of range: {digits}"
  | unterminatedString => s!"unterminated string in '{source}'"
  | unexpectedCharacter c => s!"unexpected character '{c}' in '{source}'"
  | trailingInput => s!"unexpected trailing input in '{source}'"
  | expected wanted found =>
    s!"expected {wanted.describe} but found {Token.describeFound found} in '{source}'"
  | expectedSeparator found =>
    s!"expected ',' or ']' but found {Token.describeFound found} in '{source}'"
  | unexpectedToken found => s!"unexpected token {Token.describeFound found} in '{source}'"
  | boundsNotIntegers first last =>
    s!"range bounds must be integers, got {first.describe}..{last.describe}"
  | rangeTooLarge first last =>
    s!"range {Text.Numeral.print first}..{Text.Numeral.print last} is too large"
  | negationOverflow => "integer overflow"
  | cannotNegate datum => s!"cannot negate {datum.describe}"
  | unbound name => s!"no such property: {name}"
  | divisionByZero => "division by zero"
  | overflow left op right =>
    s!"integer overflow in {Text.Numeral.print left} {op.symbol} {Text.Numeral.print right}"
  | cannotApply op left right =>
    s!"cannot apply '{op.symbol}' to {left.describe} and {right.describe}"

end Sharding.Inline
