import Sharding.Algorithm.Expression
import Sharding.Algorithm.Partition
import Sharding.Algorithm.Remainder
import Sharding.Configuration
import Sharding.Key.Generator
/-!
# Catalogs

The algorithms that configurations can name, by kind and type. Types are told apart without regard
to ASCII case.
-/

namespace Sharding

/-- Makes an algorithm from its properties. -/
abbrev Factory (α : Type) := Properties → Except Fault α

/-- The factories of each kind under their upper-case types. -/
structure Catalog where
  standard : Dictionary (Factory Algorithm.Standard)
  complex : Dictionary (Factory Algorithm.Complex)
  hint : Dictionary (Factory Algorithm.Hint)
  keyGenerate : Dictionary (Factory Key.Generator)

namespace Catalog

def empty : Catalog := ⟨.empty, .empty, .empty, .empty⟩

def addStandard (catalog : Catalog) (type : String) (make : Factory Algorithm.Standard) : Catalog :=
  { catalog with standard := catalog.standard.insert type.toUpper make }

def addComplex (catalog : Catalog) (type : String) (make : Factory Algorithm.Complex) : Catalog :=
  { catalog with complex := catalog.complex.insert type.toUpper make }

def addHint (catalog : Catalog) (type : String) (make : Factory Algorithm.Hint) : Catalog :=
  { catalog with hint := catalog.hint.insert type.toUpper make }

def addKeyGenerator (catalog : Catalog) (type : String) (make : Factory Key.Generator) : Catalog :=
  { catalog with keyGenerate := catalog.keyGenerate.insert type.toUpper make }

def builtIn : Catalog :=
  empty
    |>.addStandard "INLINE" (fun props => .ok (Algorithm.inline props))
    |>.addStandard "MOD" (fun props => .ok (Algorithm.modulo props))
    |>.addStandard "HASH_MOD" (fun props => .ok (Algorithm.hashModulo props))
    |>.addStandard "STANDARD_RANGE" (fun props => .ok (Algorithm.fixedRange props))
    |>.addStandard "CUSTOM_RANGE" (fun props => .ok (Algorithm.listedRange props))
    |>.addComplex "COMPLEX_INLINE" (fun props => .ok (Algorithm.complexInline props))
    |>.addHint "HINT_INLINE" (fun props => .ok (Algorithm.hintInline props))
    |>.addKeyGenerator "SNOWFLAKE" Key.snowflake
    |>.addKeyGenerator "INCREMENT" (fun props => .ok (Key.increment props))

/-- Makes what a configuration asks for with the factory of its type. -/
def make {α : Type} (kind : AlgorithmKind) (factories : Dictionary (Factory α))
    (config : Configuration.Algorithm) : Except Fault α :=
  match factories.get? config.type.toUpper with
  | some factory => factory config.props
  | none => .error (.configuration (.unknownAlgorithm kind config.type))

/-- A made algorithm whose properties were found to be in order. -/
def createStandard (catalog : Catalog) (config : Configuration.Algorithm) :
    Except Fault Algorithm.Standard := do
  let algorithm ← make .standard catalog.standard config
  algorithm.check
  .ok algorithm

def createComplex (catalog : Catalog) (config : Configuration.Algorithm) :
    Except Fault Algorithm.Complex := do
  let algorithm ← make .complex catalog.complex config
  algorithm.check
  .ok algorithm

def createHint (catalog : Catalog) (config : Configuration.Algorithm) :
    Except Fault Algorithm.Hint := do
  let algorithm ← make .hint catalog.hint config
  algorithm.check
  .ok algorithm

def createKeyGenerator (catalog : Catalog) (config : Configuration.Algorithm) :
    Except Fault Key.Generator :=
  make .keyGenerate catalog.keyGenerate config

/-- Some algorithm of any kind has the type. -/
def contains (catalog : Catalog) (type : String) : Bool :=
  catalog.standard.contains type.toUpper || catalog.complex.contains type.toUpper ||
    catalog.hint.contains type.toUpper || catalog.keyGenerate.contains type.toUpper

def describeTypes (types : List String) : String :=
  "[" ++ ", ".intercalate (types.map Text.quoted) ++ "]"

/-- The types of each kind in ascending order. -/
def describe (catalog : Catalog) : String :=
  "AlgorithmRegistry \x7b standard: " ++ describeTypes catalog.standard.keys ++
    ", complex: " ++ describeTypes catalog.complex.keys ++
    ", hint: " ++ describeTypes catalog.hint.keys ++
    ", key_generators: " ++ describeTypes catalog.keyGenerate.keys ++ " \x7d"

end Catalog

end Sharding
