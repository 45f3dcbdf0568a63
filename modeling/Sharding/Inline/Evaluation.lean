import Sharding.Inline.Phrase
import Sharding.Inline.Token.Reader
/-!
# Evaluating expressions

The value of an expression under bindings of its variables. Parts are evaluated from left to right
and the first problem found is the one reported.
-/

namespace Sharding.Inline

/-- A range has fewer steps than this. -/
def maxRangeSteps : Nat := 1000000

/-- The integers from `first` to `last`, upward or downward, both included. -/
def steps (first last : Int64) : List Int64 :=
  let count := (last.toInt - first.toInt).natAbs + 1
  if first ≤ last then (List.range count).map fun (i : Nat) => Int64.ofInt (first.toInt + i)
  else (List.range count).map fun (i : Nat) => Int64.ofInt (first.toInt - i)

namespace Datum

def negate : Datum → Except Problem Datum
  | .int n =>
    match Text.Numeral.fit (-n.toInt) with
    | some m => .ok (.int m)
    | none => .error .negationOverflow
  | datum => .error (.cannotNegate datum)

/-- Addition joins a text and a text or integer; all else is arithmetic on two integers. -/
def combine (op : Operator) (left right : Datum) : Except Problem Datum :=
  match op, left, right with
  | .add, .text l, .text r => .ok (.text (l ++ r))
  | .add, .text l, .int r => .ok (.text (l ++ Text.Numeral.print r))
  | .add, .int l, .text r => .ok (.text (Text.Numeral.print l ++ r))
  | op, .int l, .int r =>
    match op.result? l r with
    | some n => .ok (.int n)
    | none => .error (if op.divides && r == 0 then .divisionByZero else .overflow l op r)
  | op, left, right => .error (.cannotApply op left right)

def range : Datum → Datum → Except Problem Datum
  | .int first, .int last =>
    if (last.toInt - first.toInt).natAbs < maxRangeSteps then
      .ok (.list ((steps first last).map .int))
    else .error (.rangeTooLarge first last)
  | first, last => .error (.boundsNotIntegers first last)

end Datum

mutual

def Expr.eval (bindings : Bindings) : Expr → Except Problem Datum
  | .int n => .ok (.int n)
  | .text s => .ok (.text s)
  | .variable name =>
    match bindings.lookup name with
    | some datum => .ok datum
    | none => .error (.unbound name)
  | .negate operand => do (← operand.eval bindings).negate
  | .binary op left right => do
    let l ← left.eval bindings
    let r ← right.eval bindings
    Datum.combine op l r
  | .range first last => do
    let l ← first.eval bindings
    let r ← last.eval bindings
    l.range r
  | .list items => Datum.list <$> Expr.evalAll bindings items
  | .broken read problem => do
    let _ ← Expr.evalAll bindings read
    .error problem

/-- The values of several expressions, in order. -/
def Expr.evalAll (bindings : Bindings) : List Expr → Except Problem (List Datum)
  | [] => .ok []
  | expr :: exprs => do
    let datum ← expr.eval bindings
    let data ← Expr.evalAll bindings exprs
    .ok (datum :: data)

end

/-- The value of a placeholder body. -/
def evaluate (body : List Char) (bindings : Bindings) : Except Problem Datum := do
  let tokens ← Token.readAll body
  (Expr.ofTokens tokens).eval bindings

end Sharding.Inline
