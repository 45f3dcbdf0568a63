import Sharding.Inline.Phrase
/-!
# The grammar of placeholder bodies

Its derivation trees,

* range := additive (`..` additive)?
* additive := term ((`+` | `-`) term)*
* term := unary ((`*` | `/` | `%`) unary)*
* unary := `-` unary | primary
* primary := integer | string | word | `(` range `)` | `[` (range (`,` range)*)? `]`

with the tokens at their leaves and the expressions that they stand for.
-/

namespace Sharding.Inline

/-- The phrases of the grammar, with those that it repeats and lists. -/
inductive Symbol where
  | range
  | additive
  | addends
  | term
  | factors
  | unary
  | primary
  | items
  | moreItems

/-- The token that an operator is written as. -/
def Operator.token : Operator → Token
  | .add => .plus
  | .sub => .minus
  | .mul => .star
  | .div => .slash
  | .rem => .percent

inductive Derivation : Symbol → Type where
  | single (bound : Derivation .additive) : Derivation .range
  | upTo (first last : Derivation .additive) : Derivation .range
  | sum (first : Derivation .term) (more : Derivation .addends) : Derivation .additive
  | noAddend : Derivation .addends
  | addend (op : Operator) (additive : op ∈ [Operator.add, .sub]) (operand : Derivation .term)
      (more : Derivation .addends) : Derivation .addends
  | product (first : Derivation .unary) (more : Derivation .factors) : Derivation .term
  | noFactor : Derivation .factors
  | factor (op : Operator) (multiplicative : op ∈ [Operator.mul, .div, .rem])
      (operand : Derivation .unary) (more : Derivation .factors) : Derivation .factors
  | negated (operand : Derivation .unary) : Derivation .unary
  | plain (operand : Derivation .primary) : Derivation .unary
  | int (n : Int64) : Derivation .primary
  | text (s : String) : Derivation .primary
  | word (name : String) : Derivation .primary
  | parens (inner : Derivation .range) : Derivation .primary
  | emptyList : Derivation .primary
  | list (items : Derivation .items) : Derivation .primary
  | listed (first : Derivation .range) (more : Derivation .moreItems) : Derivation .items
  | lastItem : Derivation .moreItems
  | nextItem (next : Derivation .range) (more : Derivation .moreItems) : Derivation .moreItems

namespace Derivation

/-- The tokens at the leaves, from left to right. -/
def tokens {s : Symbol} : Derivation s → List Token
  | single bound => bound.tokens
  | upTo first last => first.tokens ++ .dots :: last.tokens
  | sum first more => first.tokens ++ more.tokens
  | noAddend => []
  | addend op _ operand more => op.token :: operand.tokens ++ more.tokens
  | product first more => first.tokens ++ more.tokens
  | noFactor => []
  | factor op _ operand more => op.token :: operand.tokens ++ more.tokens
  | negated operand => .minus :: operand.tokens
  | plain operand => operand.tokens
  | int n => [.int n]
  | text s => [.text s]
  | word name => [.word name]
  | parens inner => .openParen :: inner.tokens ++ [.closeParen]
  | emptyList => [.openBracket, .closeBracket]
  | list items => .openBracket :: items.tokens ++ [.closeBracket]
  | listed first more => first.tokens ++ more.tokens
  | lastItem => []
  | nextItem next more => .comma :: next.tokens ++ more.tokens

end Derivation

/-- What a phrase is read as. The operands that follow an operand are read as what becomes of the
expression to their left. -/
abbrev Symbol.Reading : Symbol → Type
  | .range | .additive | .term | .unary | .primary => Expr
  | .addends | .factors => Expr → Expr
  | .items | .moreItems => List Expr

namespace Derivation

/-- The expression of a derivation, operators of one rank grouped to the left. -/
def reading {s : Symbol} : Derivation s → s.Reading
  | single bound => bound.reading
  | upTo first last => Expr.range first.reading last.reading
  | sum first more => more.reading first.reading
  | noAddend => id
  | addend op _ operand more => fun left => more.reading (.binary op left operand.reading)
  | product first more => more.reading first.reading
  | noFactor => id
  | factor op _ operand more => fun left => more.reading (.binary op left operand.reading)
  | negated operand => Expr.negate operand.reading
  | plain operand => operand.reading
  | int n => Expr.int n
  | text s => Expr.text s
  | word name => Expr.variable name
  | parens inner => inner.reading
  | emptyList => Expr.list []
  | list items => Expr.list items.reading
  | listed first more => first.reading :: more.reading
  | lastItem => []
  | nextItem next more => next.reading :: more.reading

end Derivation

end Sharding.Inline
