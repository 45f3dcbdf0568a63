import Sharding.Value
/-!
# Intervals

Ranges of sharding values, each end included, excluded or open to infinity, and the 64-bit integers
that lie in them.
-/

namespace Sharding

inductive Bound where
  | unbounded
  | included (v : Value)
  | excluded (v : Value)
  deriving DecidableEq

structure Interval where
  lower : Bound
  upper : Bound
  deriving DecidableEq

namespace Interval

def closed (lower upper : Value) : Interval := ⟨.included lower, .included upper⟩
def closedOpen (lower upper : Value) : Interval := ⟨.included lower, .excluded upper⟩
def opened (lower upper : Value) : Interval := ⟨.excluded lower, .excluded upper⟩
def atLeast (lower : Value) : Interval := ⟨.included lower, .unbounded⟩
def greaterThan (lower : Value) : Interval := ⟨.excluded lower, .unbounded⟩
def atMost (upper : Value) : Interval := ⟨.unbounded, .included upper⟩
def lessThan (upper : Value) : Interval := ⟨.unbounded, .excluded upper⟩
def all : Interval := ⟨.unbounded, .unbounded⟩

def admitsAbove : Bound → Value → Bool
  | .unbounded, _ => true
  | .included l, v => !v.before l
  | .excluded l, v => l.before v

def admitsBelow : Bound → Value → Bool
  | .unbounded, _ => true
  | .included u, v => !u.before v
  | .excluded u, v => v.before u

/-- The value lies in the interval in the order of values. -/
def contains (interval : Interval) (v : Value) : Bool :=
  admitsAbove interval.lower v && admitsBelow interval.upper v

def numberOf (v : Value) : Except Value Int64 :=
  match v.number? with
  | some n => .ok n
  | none => .error v

/-- The least integer that a lower bound admits; none lies above the greatest. -/
def least : Bound → Except Value (Option Int64)
  | .unbounded => .ok (some Int64.minValue)
  | .included v => some <$> numberOf v
  | .excluded v => (fun n => Text.Numeral.fit (n.toInt + 1)) <$> numberOf v

/-- The greatest integer that an upper bound admits; none lies below the least. -/
def greatest : Bound → Except Value (Option Int64)
  | .unbounded => .ok (some Int64.maxValue)
  | .included v => some <$> numberOf v
  | .excluded v => (fun n => Text.Numeral.fit (n.toInt - 1)) <$> numberOf v

/-- The first and the last integer of the interval, nothing if it holds none, or the bound that is
no number. An upper bound is looked at only when the lower one admits some integer. -/
def integers (interval : Interval) : Except Value (Option (Int64 × Int64)) := do
  match ← least interval.lower with
  | none => .ok none
  | some low =>
    match ← greatest interval.upper with
    | none => .ok none
    | some high => .ok (if low ≤ high then some (low, high) else none)

def displayLower : Bound → String
  | .unbounded => "(-∞"
  | .included v => "[" ++ v.display
  | .excluded v => "(" ++ v.display

def displayUpper : Bound → String
  | .unbounded => "+∞)"
  | .included v => v.display ++ "]"
  | .excluded v => v.display ++ ")"

def display (interval : Interval) : String :=
  displayLower interval.lower ++ ".." ++ displayUpper interval.upper

end Interval

end Sharding
