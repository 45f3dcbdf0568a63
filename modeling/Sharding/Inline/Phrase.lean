import Sharding.Inline.Expr
/-!
# Phrases

One function for each phrase of the grammar

* range := additive (`..` additive)?
* additive := term ((`+` | `-`) term)*
* term := unary ((`*` | `/` | `%`) unary)*
* unary := `-` unary | primary
* primary := integer | string | word | `(` range `)` | `[` (range (`,` range)*)? `]`

Each reads its phrase at the head of the tokens and tells how many of them it took. A phrase that
breaks off takes all of them, so that nothing is read after a break.
-/

namespace Sharding.Inline

structure Phrase where
  expr : Expr
  size : Nat

/-- The items read of a list, and what went wrong after the last of them. -/
structure Items where
  exprs : List Expr
  problem : Option Problem
  size : Nat

namespace Phrase

theorem measure_drop {ts : List Token} {n a b : Nat} (h : a < b) :
    10 * (ts.drop n).length + a < 10 * ts.length + b := by
  rw [List.length_drop]
  omega

theorem measure_tail {token : Token} {ts : List Token} {a b : Nat} (h : a < 10 + b) :
    10 * ts.length + a < 10 * (token :: ts).length + b := by
  rw [List.length_cons]
  omega

theorem measure_drop_tail {token : Token} {ts : List Token} {n a b : Nat} (h : a < 10 + b) :
    10 * (ts.drop n).length + a < 10 * (token :: ts).length + b := by
  rw [List.length_drop, List.length_cons]
  omega

def additiveOperator? : Token → Option Operator
  | .plus => some .add
  | .minus => some .sub
  | _ => none

def termOperator? : Token → Option Operator
  | .star => some .mul
  | .slash => some .div
  | .percent => some .rem
  | _ => none

mutual

def range (ts : List Token) : Phrase :=
  let first := additive ts
  let last := upTo first.expr (ts.drop first.size)
  ⟨last.expr, first.size + last.size⟩
termination_by 10 * ts.length + 7
decreasing_by
  · exact Nat.add_lt_add_left (by decide) _
  · exact measure_drop (by decide)

/-- The rest of a range after its first bound. -/
def upTo (first : Expr) (ts : List Token) : Phrase :=
  match ts with
  | .dots :: rest =>
    let last := additive rest
    ⟨.range first last.expr, last.size + 1⟩
  | _ => ⟨first, 0⟩
termination_by 10 * ts.length + 6

def additive (ts : List Token) : Phrase :=
  let first := term ts
  let more := addends first.expr (ts.drop first.size)
  ⟨more.expr, first.size + more.size⟩
termination_by 10 * ts.length + 5
decreasing_by
  · exact Nat.add_lt_add_left (by decide) _
  · exact measure_drop (by decide)

/-- The operators and operands that follow `left`, grouped to the left. -/
def addends (left : Expr) (ts : List Token) : Phrase :=
  match ts with
  | [] => ⟨left, 0⟩
  | token :: rest =>
    match additiveOperator? token with
    | none => ⟨left, 0⟩
    | some op =>
      let right := term rest
      let more := addends (.binary op left right.expr) (rest.drop right.size)
      ⟨more.expr, right.size + more.size + 1⟩
termination_by 10 * ts.length + 4
decreasing_by
  · exact measure_tail (by decide)
  · exact measure_drop_tail (by decide)

def term (ts : List Token) : Phrase :=
  let first := unary ts
  let more := factors first.expr (ts.drop first.size)
  ⟨more.expr, first.size + more.size⟩
termination_by 10 * ts.length + 3
decreasing_by
  · exact Nat.add_lt_add_left (by decide) _
  · exact measure_drop (by decide)

/-- The operators and operands that follow `left`, grouped to the left. -/
def factors (left : Expr) (ts : List Token) : Phrase :=
  match ts with
  | [] => ⟨left, 0⟩
  | token :: rest =>
    match termOperator? token with
    | none => ⟨left, 0⟩
    | some op =>
      let right := unary rest
      let more := factors (.binary op left right.expr) (rest.drop right.size)
      ⟨more.expr, right.size + more.size + 1⟩
termination_by 10 * ts.length + 2
decreasing_by
  · exact measure_tail (by decide)
  · exact measure_drop_tail (by decide)

def unary (ts : List Token) : Phrase :=
  match ts with
  | .minus :: rest =>
    let operand := unary rest
    ⟨.negate operand.expr, operand.size + 1⟩
  | ts => primary ts
termination_by 10 * ts.length + 1

def primary (ts : List Token) : Phrase :=
  match ts with
  | .int n :: _ => ⟨.int n, 1⟩
  | .text s :: _ => ⟨.text s, 1⟩
  | .word name :: _ => ⟨.variable name, 1⟩
  | .openParen :: rest =>
    let inner := range rest
    if rest[inner.size]? = some .closeParen then ⟨inner.expr, inner.size + 2⟩
    else ⟨.broken [inner.expr] (.expected .closeParen rest[inner.size]?), ts.length⟩
  | .openBracket :: .closeBracket :: _ => ⟨.list [], 2⟩
  | .openBracket :: rest =>
    let listed := items rest
    match listed.problem with
    | none => ⟨.list listed.exprs, listed.size + 1⟩
    | some problem => ⟨.broken listed.exprs problem, ts.length⟩
  | _ => ⟨.broken [] (.unexpectedToken ts.head?), ts.length⟩
termination_by 10 * ts.length

/-- The items of a list and the bracket that closes it. -/
def items (ts : List Token) : Items :=
  let item := range ts
  let more := moreItems (ts.drop item.size)
  ⟨item.expr :: more.exprs, more.problem, item.size + more.size⟩
termination_by 10 * ts.length + 9
decreasing_by
  · exact Nat.add_lt_add_left (by decide) _
  · exact measure_drop (by decide)

/-- The rest of a list after one of its items. -/
def moreItems (ts : List Token) : Items :=
  match ts with
  | .comma :: rest =>
    let more := items rest
    ⟨more.exprs, more.problem, more.size + 1⟩
  | .closeBracket :: _ => ⟨[], none, 1⟩
  | _ => ⟨[], some (.expectedSeparator ts.head?), ts.length⟩
termination_by 10 * ts.length + 8

end

end Phrase

/-- The tree of a whole body, which is one range and nothing after it. -/
def Expr.ofTokens (ts : List Token) : Expr :=
  let whole := Phrase.range ts
  if whole.size < ts.length then .broken [whole.expr] .trailingInput else whole.expr

end Sharding.Inline
