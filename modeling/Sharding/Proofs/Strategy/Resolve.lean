import Mathlib.Data.List.Induction
import Sharding.Proofs.Algorithm.BuiltIn
import Sharding.Proofs.Name
import Sharding.Strategy
/-!
# What a strategy picks

A strategy picks the available names among the targets it found, or all of them where it found
nothing to go by. The strategies of the built-in catalog are described by their constructors.
-/

namespace Sharding.Strategy

open Outcome

inductive BuiltIn : Strategy → Prop where
  | standard (column : String) {algorithm : Algorithm.Standard} (builtIn : algorithm.BuiltIn)
      (check : algorithm.check = .ok ()) : BuiltIn (.standard column algorithm)
  | complex (columns : List String) (props : Properties) :
      BuiltIn (.complex columns (Algorithm.complexInline props))
  | hint (props : Properties) : BuiltIn (.hint (Algorithm.hintInline props))
  | none : BuiltIn .none

theorem build_builtIn {config : Configuration.Strategy} {strategy : Strategy}
    (h : build Catalog.builtIn config = .ok strategy) : strategy.BuiltIn := by
  cases config with
  | standard column algorithm =>
    obtain ⟨_, _, h⟩ := bind_eq_ok.1 h
    obtain ⟨_, _, h⟩ := bind_eq_ok.1 h
    obtain ⟨made, hmade, h⟩ := bind_eq_ok.1 h
    obtain ⟨column, _, h⟩ := bind_eq_ok.1 h
    obtain ⟨hbuiltIn, hcheck⟩ := Catalog.createStandard_builtIn hmade
    cases h
    exact .standard column hbuiltIn hcheck
  | complex columns algorithm =>
    obtain ⟨_, _, h⟩ := bind_eq_ok.1 h
    obtain ⟨_, _, h⟩ := bind_eq_ok.1 h
    obtain ⟨made, hmade, h⟩ := bind_eq_ok.1 h
    obtain ⟨props, rfl⟩ := Catalog.createComplex_builtIn hmade
    split at h
    · cases h
    · cases h
      exact .complex _ props
  | hint algorithm =>
    obtain ⟨_, _, h⟩ := bind_eq_ok.1 h
    obtain ⟨made, hmade, h⟩ := bind_eq_ok.1 h
    obtain ⟨props, rfl⟩ := Catalog.createHint_builtIn hmade
    cases h
    exact .hint props
  | none =>
    cases h
    exact .none

/-- The name is among the targets found. Where nothing was found to go by, every name is. -/
def Picks (found : Option (List String)) (name : String) : Prop :=
  ∀ targets, found = some targets → Name.isIn targets name

@[simp] theorem picks_none (name : String) : Picks Option.none name := by
  intro targets h
  cases h

@[simp] theorem picks_some {targets : List String} {name : String} :
    Picks (some targets) name ↔ Name.isIn targets name := by
  simp [Picks]

theorem picks_iff_all {found : Option (List String)} {name : String} :
    Picks found name ↔ found.all (Name.isIn · name) := by
  cases found <;> simp

theorem resolve_of_error {strategy : Strategy} {available : List String}
    {predicates : List Predicate} {fault : Fault}
    (h : strategy.targets? available predicates = .error fault) :
    strategy.resolve available predicates = .error fault := by
  cases strategy with
  | none => cases h
  | _ =>
    simp only [resolve, h]
    rfl

/-- What is left are the available names that are picked. -/
theorem resolve_of_ok {strategy : Strategy} {available : List String}
    {predicates : List Predicate} {found : Option (List String)}
    (h : strategy.targets? available predicates = .ok found) :
    ∃ names, strategy.resolve available predicates = .ok names ∧
      ∀ name, Name.isIn names name ↔ Name.isIn available name ∧ Picks found name := by
  cases strategy with
  | none =>
    cases h
    exact ⟨available, rfl, by simp⟩
  | _ =>
    simp only [resolve, h]
    cases found with
    | none => exact ⟨_, rfl, by simp [Name.isIn_canonical]⟩
    | some targets => exact ⟨_, rfl, by simp [restrict, Name.isIn_canonical, Name.isIn_findAll]⟩

theorem resolve_eq_ok {strategy : Strategy} {available names : List String}
    {predicates : List Predicate} (h : strategy.resolve available predicates = .ok names) :
    ∃ found, strategy.targets? available predicates = .ok found ∧
      ∀ name, Name.isIn names name ↔ Name.isIn available name ∧ Picks found name := by
  cases htargets : strategy.targets? available predicates with
  | error fault => cases (resolve_of_error htargets).symm.trans h
  | ok found =>
    obtain ⟨left, hleft, hnames⟩ := resolve_of_ok htargets
    cases hleft.symm.trans h
    exact ⟨found, rfl, hnames⟩

theorem exists_resolve_iff {strategy : Strategy} {available : List String}
    {predicates : List Predicate} :
    (∃ names, strategy.resolve available predicates = .ok names) ↔
      ∃ found, strategy.targets? available predicates = .ok found := by
  constructor
  · rintro ⟨names, hnames⟩
    obtain ⟨found, hfound, _⟩ := resolve_eq_ok hnames
    exact ⟨found, hfound⟩
  · rintro ⟨found, hfound⟩
    obtain ⟨names, hnames, _⟩ := resolve_of_ok hfound
    exact ⟨names, hnames⟩

theorem resolve_eq_error {strategy : Strategy} {available : List String}
    {predicates : List Predicate} {fault : Fault}
    (h : strategy.resolve available predicates = .error fault) :
    strategy.targets? available predicates = .error fault := by
  cases htargets : strategy.targets? available predicates with
  | error other =>
    cases (resolve_of_error htargets).symm.trans h
    rfl
  | ok found =>
    obtain ⟨names, hnames, _⟩ := resolve_of_ok htargets
    cases hnames.symm.trans h

/-! ## One column -/

theorem targets?_standard {column : String} (algorithm : Algorithm.Standard)
    (available : List String) {predicates : List Predicate} {predicate : Predicate}
    (h : predicates.find? (·.isAbout column) = some predicate) :
    (standard column algorithm).targets? available predicates =
      some <$> standardTargets column algorithm available predicate := by
  simp only [targets?, h]

theorem targets?_standard_of_none {column : String} (algorithm : Algorithm.Standard)
    (available : List String) {predicates : List Predicate}
    (h : predicates.find? (·.isAbout column) = Option.none) :
    (standard column algorithm).targets? available predicates = .ok Option.none := by
  simp only [targets?, h]

/-- The targets of a list are those of its values. -/
theorem isIn_standardTargets_list {column table other : String} {algorithm : Algorithm.Standard}
    {available names : List String} {values : List Value}
    (h : standardTargets column algorithm available (.list table other values) = .ok names)
    {name : String} :
    Name.isIn names name ↔ ∃ v ∈ values, ∃ target,
      algorithm.precise available ⟨table, column, v⟩ = .ok (some target) ∧
        Name.fold target = Name.fold name := by
  obtain ⟨targets, htargets, h⟩ := bind_eq_ok.1 h
  rw [← Except.ok.inj h, Name.isIn_iff]
  simp only [mem_filterMap_of_mapM htargets]
  constructor
  · rintro ⟨target, ⟨v, hv, htarget⟩, hfold⟩
    exact ⟨v, hv, target, htarget, hfold⟩
  · rintro ⟨v, hv, target, htarget, hfold⟩
    exact ⟨target, ⟨v, hv, htarget⟩, hfold⟩

/-! ## Gathered columns -/

theorem gatherColumns_append (columns : List String) (predicates : List Predicate)
    (last : Predicate) :
    gatherColumns columns (predicates ++ [last]) =
      gatherColumn columns (gatherColumns columns predicates) last := by
  simp [gatherColumns]

/-- The values that a list gives to the column it is about. -/
def listed (columns : List String) : Predicate → Option (String × List Value)
  | .list _ column values => (columns.find? (Name.same column ·)).map fun k => (k, values)
  | .range _ _ _ | .hint _ _ => Option.none

/-- The range that a predicate gives to the column it is about. -/
def ranged (columns : List String) : Predicate → Option (String × Interval)
  | .range _ column interval => (columns.find? (Name.same column ·)).map fun k => (k, interval)
  | .list _ _ _ | .hint _ _ => Option.none

theorem listed_eq_some_iff {columns : List String} {p : Predicate} {k : String}
    {values : List Value} :
    listed columns p = some (k, values) ↔ ∃ table column, p = .list table column values ∧
      columns.find? (Name.same column ·) = some k := by
  cases p with
  | list table column own =>
    rw [listed, Option.map_eq_some_iff]
    constructor
    · rintro ⟨_, hfind, ⟨⟩⟩
      exact ⟨table, column, rfl, hfind⟩
    · rintro ⟨_, _, ⟨⟩, hfind⟩
      exact ⟨k, hfind, rfl⟩
  | _ => simp [listed]

theorem ranged_eq_some_iff {columns : List String} {p : Predicate} {k : String}
    {interval : Interval} :
    ranged columns p = some (k, interval) ↔ ∃ table column, p = .range table column interval ∧
      columns.find? (Name.same column ·) = some k := by
  cases p with
  | range table column own =>
    rw [ranged, Option.map_eq_some_iff]
    constructor
    · rintro ⟨_, hfind, ⟨⟩⟩
      exact ⟨table, column, rfl, hfind⟩
    · rintro ⟨_, _, ⟨⟩, hfind⟩
      exact ⟨k, hfind, rfl⟩
  | _ => simp [ranged]

theorem gatherColumn_eq (columns : List String) (gathered : Algorithm.Columns) (p : Predicate) :
    (gatherColumn columns gathered p).values =
        (listed columns p).elim gathered.values (fun entry =>
          gathered.values.insert entry.1 entry.2) ∧
      (gatherColumn columns gathered p).ranges =
        (ranged columns p).elim gathered.ranges (fun entry =>
          gathered.ranges.insert entry.1 entry.2) := by
  unfold gatherColumn
  cases p with
  | list table column values =>
    have habout : (Predicate.isAbout · (.list table column values)) = (Name.same column ·) := rfl
    rw [listed, habout]
    cases columns.find? (Name.same column ·) <;> exact ⟨rfl, rfl⟩
  | range table column interval =>
    have habout : (Predicate.isAbout · (.range table column interval)) = (Name.same column ·) := rfl
    rw [ranged, habout]
    cases columns.find? (Name.same column ·) <;> exact ⟨rfl, rfl⟩
  | hint table values =>
    cases columns.find? (Predicate.isAbout · (.hint table values)) <;> exact ⟨rfl, rfl⟩

/-- The values and the ranges are gathered apart, each from the predicates that give some. -/
theorem gatherColumns_eq_ofList (columns : List String) (predicates : List Predicate) :
    (gatherColumns columns predicates).values =
        .ofList (predicates.filterMap (listed columns)) ∧
      (gatherColumns columns predicates).ranges =
        .ofList (predicates.filterMap (ranged columns)) := by
  induction predicates using List.reverseRecOn with
  | nil => exact ⟨rfl, rfl⟩
  | append_singleton predicates last ih =>
    obtain ⟨hvalues, hranges⟩ := gatherColumn_eq columns (gatherColumns columns predicates) last
    rw [gatherColumns_append, hvalues, hranges, ih.1, ih.2,
      Dictionary.ofList_filterMap_append_singleton, Dictionary.ofList_filterMap_append_singleton]
    exact ⟨rfl, rfl⟩

/-- The values gathered for a column are those of a predicate on it. -/
theorem get?_values_gatherColumns {columns : List String} {predicates : List Predicate}
    {c : String} {values : List Value}
    (h : (gatherColumns columns predicates).values.get? c = some values) :
    ∃ table column, .list table column values ∈ predicates ∧
      columns.find? (Name.same column ·) = some c := by
  rw [(gatherColumns_eq_ofList columns predicates).1] at h
  obtain ⟨p, hp, hlisted⟩ := List.mem_filterMap.1 (Dictionary.mem_of_get?_ofList h)
  obtain ⟨table, column, rfl, hfind⟩ := listed_eq_some_iff.1 hlisted
  exact ⟨table, column, hp, hfind⟩

/-- Some values are gathered for every column that a list is about. -/
theorem exists_values_gatherColumns {columns : List String} {predicates : List Predicate}
    {table column c : String} {values : List Value}
    (hmem : .list table column values ∈ predicates)
    (hfind : columns.find? (Name.same column ·) = some c) :
    ∃ gathered, (gatherColumns columns predicates).values.get? c = some gathered := by
  rw [(gatherColumns_eq_ofList columns predicates).1]
  have hlisted : listed columns (.list table column values) = some (c, values) :=
    listed_eq_some_iff.2 ⟨table, column, rfl, hfind⟩
  exact Dictionary.exists_get?_ofList (List.mem_filterMap.2 ⟨_, hmem, hlisted⟩)

theorem ranges_gatherColumns_of_lists {columns : List String} {predicates : List Predicate}
    (h : ∀ predicate ∈ predicates, ∃ table column values, predicate = .list table column values)
    (c : String) : (gatherColumns columns predicates).ranges.get? c = Option.none := by
  have hnone : predicates.filterMap (ranged columns) = [] := by
    rw [List.filterMap_eq_nil_iff]
    intro p hp
    obtain ⟨table, column, values, rfl⟩ := h p hp
    rfl
  rw [(gatherColumns_eq_ofList columns predicates).2, hnone]
  rfl

theorem find?_same_congr (columns : List String) {a b : String} (h : Name.same a b) :
    columns.find? (Name.same a ·) = columns.find? (Name.same b ·) := by
  simp only [Name.same, Name.same_iff.1 h]

theorem targets?_complex_eq_ok {columns : List String} {algorithm : Algorithm.Complex}
    {available : List String} {predicates : List Predicate} {found : Option (List String)}
    (h : (complex columns algorithm).targets? available predicates = .ok found) :
    (gatherColumns columns predicates).values.isEmpty = true ∧
        (gatherColumns columns predicates).ranges.isEmpty = true ∧ found = Option.none ∨
      ((gatherColumns columns predicates).values.isEmpty = false ∨
          (gatherColumns columns predicates).ranges.isEmpty = false) ∧
        ∃ targets, found = some targets ∧
          algorithm.targets available (gatherColumns columns predicates) = .ok targets := by
  simp only [targets?] at h
  split at h
  · next hempty =>
    cases h
    rw [Bool.and_eq_true] at hempty
    exact .inl ⟨hempty.1, hempty.2, rfl⟩
  · next hsome =>
    rw [Bool.not_eq_true, Bool.and_eq_false_iff] at hsome
    obtain ⟨targets, htargets, heq⟩ := map_eq_ok.1 h
    exact .inr ⟨hsome, targets, heq.symm, htargets⟩

end Sharding.Strategy
