import Sharding.Dictionary
import Sharding.Fault.Basic
import Sharding.Name
/-!
# Properties

The settings of an algorithm, as texts under their keys. A blank setting counts as absent.
-/

namespace Sharding

abbrev Properties := Dictionary String

namespace Properties

/-- The trimmed text of a setting that is not blank. -/
def text? (props : Properties) (key : String) : Option String :=
  (props.get? key).bind Text.content?

def text (props : Properties) (algorithm key : String) : Except Fault String :=
  match props.text? key with
  | some text => .ok text
  | none => .error (.property algorithm (.missing key))

def integer (props : Properties) (algorithm key : String) : Except Fault Int64 := do
  let raw ← props.text algorithm key
  match Text.Numeral.parse? raw with
  | some n => .ok n
  | none => .error (.property algorithm (.notInteger key raw))

/-- An integer setting, or `default` where it is absent. -/
def integerOr (props : Properties) (algorithm key : String) (default : Int64) :
    Except Fault Int64 :=
  if (props.text? key).isSome then props.integer algorithm key else .ok default

/-- The setting is the word true. -/
def flag (props : Properties) (key : String) : Bool :=
  match props.get? key with
  | some raw => Name.same (Text.trim raw) "true"
  | none => false

end Properties

end Sharding
