import Mathlib.Tactic.SplitIfs
import Sharding.Catalog
import Sharding.Proofs.Dictionary
import Sharding.Proofs.Outcome
/-!
# The built-in algorithms

Whatever the built-in catalog makes is one of seven known algorithms, with properties that it found
to be in order.
-/

namespace Sharding

namespace Algorithm

inductive Standard.BuiltIn : Standard → Prop where
  | inline (props : Properties) : BuiltIn (inline props)
  | modulo (props : Properties) : BuiltIn (modulo props)
  | hashModulo (props : Properties) : BuiltIn (hashModulo props)
  | fixedRange (props : Properties) : BuiltIn (fixedRange props)
  | listedRange (props : Properties) : BuiltIn (listedRange props)

/-- The built-in algorithm of a type. -/
def Standard.named (props : Properties) : String → Standard
  | "INLINE" => inline props
  | "MOD" => modulo props
  | "HASH_MOD" => hashModulo props
  | "STANDARD_RANGE" => fixedRange props
  | _ => listedRange props

theorem Standard.BuiltIn.eq_named {a : Standard} (h : a.BuiltIn) : a = named a.props a.type := by
  cases h <;> rfl

/-- A type and properties name one algorithm. -/
theorem Standard.BuiltIn.eq_of_type_eq {a b : Standard} (ha : a.BuiltIn) (hb : b.BuiltIn)
    (htype : a.type = b.type) (hprops : a.props = b.props) : a = b := by
  rw [ha.eq_named, hb.eq_named, htype, hprops]

/-- No built-in algorithm looks at the name of the table. -/
theorem Standard.BuiltIn.precise_eq {a : Standard} (h : a.BuiltIn) (available : List String)
    (table other column : String) (v : Value) :
    a.precise available ⟨table, column, v⟩ = a.precise available ⟨other, column, v⟩ := by
  cases h <;> rfl

theorem Standard.BuiltIn.range_eq {a : Standard} (h : a.BuiltIn) (available : List String)
    (table other column : String) (interval : Interval) :
    a.range available ⟨table, column, interval⟩ = a.range available ⟨other, column, interval⟩ := by
  cases h <;> rfl

end Algorithm

namespace Catalog

open Outcome Dictionary

theorem make_eq_ok {α : Type} {kind : AlgorithmKind} {factories : Dictionary (Factory α)}
    {config : Configuration.Algorithm} {a : α} (h : make kind factories config = .ok a) :
    ∃ factory, factories.get? config.type.toUpper = some factory ∧
      factory config.props = .ok a := by
  unfold make at h
  cases hfactory : factories.get? config.type.toUpper with
  | none =>
    rw [hfactory] at h
    cases h
  | some factory =>
    rw [hfactory] at h
    exact ⟨factory, rfl, h⟩

theorem builtIn_standard {type : String} {factory : Factory Algorithm.Standard}
    (h : builtIn.standard.get? type = some factory) {props : Properties}
    {a : Algorithm.Standard} (hmake : factory props = .ok a) : a.BuiltIn := by
  simp only [builtIn, empty, addStandard, addComplex, addHint, addKeyGenerator, get?_insert,
    get?_empty] at h
  split_ifs at h <;> cases h <;> cases hmake <;> constructor

theorem builtIn_complex {type : String} {factory : Factory Algorithm.Complex}
    (h : builtIn.complex.get? type = some factory) {props : Properties}
    {a : Algorithm.Complex} (hmake : factory props = .ok a) :
    a = Algorithm.complexInline props := by
  simp only [builtIn, empty, addStandard, addComplex, addHint, addKeyGenerator, get?_insert,
    get?_empty] at h
  split_ifs at h
  cases h
  cases hmake
  rfl

theorem builtIn_hint {type : String} {factory : Factory Algorithm.Hint}
    (h : builtIn.hint.get? type = some factory) {props : Properties}
    {a : Algorithm.Hint} (hmake : factory props = .ok a) : a = Algorithm.hintInline props := by
  simp only [builtIn, empty, addStandard, addComplex, addHint, addKeyGenerator, get?_insert,
    get?_empty] at h
  split_ifs at h
  cases h
  cases hmake
  rfl

theorem toUpper_eq_iff {s t : String} : s.toUpper = t ↔ s.toList.map Char.toUpper = t.toList := by
  rw [← String.toList_inj, String.toUpper, String.toList_map]

theorem toUpper_types : ["INLINE", "MOD", "HASH_MOD", "STANDARD_RANGE", "CUSTOM_RANGE",
      "COMPLEX_INLINE", "HINT_INLINE", "SNOWFLAKE", "INCREMENT"].map String.toUpper =
    ["INLINE", "MOD", "HASH_MOD", "STANDARD_RANGE", "CUSTOM_RANGE",
      "COMPLEX_INLINE", "HINT_INLINE", "SNOWFLAKE", "INCREMENT"] := by
  simp only [List.map_cons, List.map_nil, toUpper_eq_iff, List.cons.injEq]
  decide

/-- The types of the catalog are found in any case. -/
theorem make_standard (config : Configuration.Algorithm)
    (h : config.type.toUpper ∈ ["INLINE", "MOD", "HASH_MOD", "STANDARD_RANGE", "CUSTOM_RANGE"]) :
    make .standard builtIn.standard config = .ok (.named config.props config.type.toUpper) := by
  have hupper := toUpper_types
  simp only [List.map_cons, List.map_nil, List.cons.injEq, and_true] at hupper
  simp only [List.mem_cons, List.not_mem_nil, or_false] at h
  rcases h with h | h | h | h | h <;>
    simp [make, h, builtIn, empty, addStandard, addComplex, addHint, addKeyGenerator, get?_insert,
      hupper, Algorithm.Standard.named]

theorem make_hintInline (config : Configuration.Algorithm)
    (h : config.type.toUpper = "HINT_INLINE") :
    make .hint builtIn.hint config = .ok (Algorithm.hintInline config.props) := by
  have hupper := toUpper_types
  simp only [List.map_cons, List.map_nil, List.cons.injEq, and_true] at hupper
  simp [make, h, builtIn, empty, addStandard, addComplex, addHint, addKeyGenerator, get?_insert,
    hupper]

theorem createKeyGenerator_increment {config : Configuration.Algorithm}
    (h : config.type.toUpper = "INCREMENT") :
    builtIn.createKeyGenerator config = .ok (Key.increment config.props) := by
  have hupper := toUpper_types
  simp only [List.map_cons, List.map_nil, List.cons.injEq, and_true] at hupper
  simp [createKeyGenerator, make, h, builtIn, empty, addStandard, addComplex, addHint,
    addKeyGenerator, get?_insert, hupper]

theorem createStandard_builtIn {config : Configuration.Algorithm} {a : Algorithm.Standard}
    (h : builtIn.createStandard config = .ok a) : a.BuiltIn ∧ a.check = .ok () := by
  obtain ⟨made, hmade, h⟩ := bind_eq_ok.1 h
  obtain ⟨_, hcheck, h⟩ := bind_eq_ok.1 h
  obtain ⟨factory, hfactory, hprops⟩ := make_eq_ok hmade
  cases h
  exact ⟨builtIn_standard hfactory hprops, hcheck⟩

theorem createComplex_builtIn {config : Configuration.Algorithm} {a : Algorithm.Complex}
    (h : builtIn.createComplex config = .ok a) :
    ∃ props, a = Algorithm.complexInline props := by
  obtain ⟨made, hmade, h⟩ := bind_eq_ok.1 h
  obtain ⟨_, _, h⟩ := bind_eq_ok.1 h
  obtain ⟨factory, hfactory, hprops⟩ := make_eq_ok hmade
  cases h
  exact ⟨config.props, builtIn_complex hfactory hprops⟩

theorem createHint_builtIn {config : Configuration.Algorithm} {a : Algorithm.Hint}
    (h : builtIn.createHint config = .ok a) : ∃ props, a = Algorithm.hintInline props := by
  obtain ⟨made, hmade, h⟩ := bind_eq_ok.1 h
  obtain ⟨_, _, h⟩ := bind_eq_ok.1 h
  obtain ⟨factory, hfactory, hprops⟩ := make_eq_ok hmade
  cases h
  exact ⟨config.props, builtIn_hint hfactory hprops⟩

end Catalog

end Sharding
