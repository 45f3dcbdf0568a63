import Sharding.Inline.Problem
/-!
# Faults of name expressions
-/

namespace Sharding.Inline

/-- One expression stands for at most so many names. -/
def maxNames : Nat := 1000000

inductive Fault where
  | unterminatedPlaceholder (template : String)
  | tooManyNames (expression : String)
  | notOneName (expression : String) (count : Nat)
  | inBody (source : String) (problem : Problem)

def Fault.message : Fault → String
  | unterminatedPlaceholder template => s!"unterminated placeholder in '{template}'"
  | tooManyNames expression => s!"'{expression}' expands to more than {maxNames} names"
  | notOneName expression count =>
    s!"'{expression}' evaluated to {count} values, expected exactly one"
  | inBody source problem => problem.message source

end Sharding.Inline
