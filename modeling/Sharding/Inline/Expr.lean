import Sharding.Inline.Problem
/-!
# Expressions

The syntax trees of placeholder bodies. A body that breaks off is a tree too: it holds what was
read before the break, so that a fault among those parts is found before the break itself.
-/

namespace Sharding.Inline

inductive Expr where
  | int (n : Int64)
  | text (s : String)
  | variable (name : String)
  | negate (operand : Expr)
  | binary (op : Operator) (left right : Expr)
  | range (first last : Expr)
  | list (items : List Expr)
  | broken (read : List Expr) (problem : Problem)

end Sharding.Inline
