import Sharding.Text.Blank
import Sharding.Text.Numeral
/-!
# Sharding values

The values of predicates and hints: integers and texts. Every integer comes before every text.
-/

namespace Sharding

inductive Value where
  | int (n : Int64)
  | text (s : String)
  deriving DecidableEq

namespace Value

/-- The integer that a value is or that its trimmed text writes. -/
def number? : Value → Option Int64
  | int n => some n
  | text s => Text.Numeral.parse? (Text.trim s)

def display : Value → String
  | int n => Text.Numeral.print n
  | text s => s

/-- Integers by size, then texts by code points. -/
def before : Value → Value → Bool
  | int a, int b => a < b
  | int _, text _ => true
  | text _, int _ => false
  | text a, text b => a < b

/-- The bytes of the displayed value, in which an integer and its numeral agree. -/
def bytes (v : Value) : List UInt8 :=
  v.display.toUTF8.toList

end Value

end Sharding
