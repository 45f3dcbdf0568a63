import Sharding.Text.Numeral
/-!
# Operators

The binary operators of placeholder bodies on 64-bit integers. A result that does not fit is
refused, never wrapped.
-/

namespace Sharding.Inline

inductive Operator where
  | add
  | sub
  | mul
  | div
  | rem
  deriving DecidableEq

namespace Operator

def symbol : Operator → String
  | add => "+"
  | sub => "-"
  | mul => "*"
  | div => "/"
  | rem => "%"

def divides : Operator → Bool
  | div | rem => true
  | add | sub | mul => false

/-- Division truncates toward zero and the remainder has the sign of the dividend; a remainder
exists only where the quotient fits. -/
def result? (op : Operator) (l r : Int64) : Option Int64 :=
  match op with
  | add => Text.Numeral.fit (l.toInt + r.toInt)
  | sub => Text.Numeral.fit (l.toInt - r.toInt)
  | mul => Text.Numeral.fit (l.toInt * r.toInt)
  | div => if r = 0 then none else Text.Numeral.fit (l.toInt.tdiv r.toInt)
  | rem =>
    if r = 0 then none
    else (Text.Numeral.fit (l.toInt.tdiv r.toInt)).map fun _ => Int64.ofInt (l.toInt.tmod r.toInt)

end Operator

end Sharding.Inline
