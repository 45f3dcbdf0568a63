import Sharding.Proofs.Strategy.Relevance
import Sharding.Proofs.Strategy.Restatement
/-!
# Canonical picks

Whatever an algorithm returns, its strategy leaves each available name at most once, in its first
spelling and in ascending order. Order, spelling and repetition of what was returned do not show,
nor do names that are not available.
-/

namespace Sharding.Strategy

open Outcome

/-- What came of asking the algorithm of a strategy: the names that it returned, or nothing where no
predicate gave it anything to go by. -/
inductive Answered (available : List String) (predicates : List Predicate) :
    Strategy → Option (List String) → Prop where
  | standard_unasked {column : String} {algorithm : Algorithm.Standard}
      (unheeded : ∀ p ∈ predicates, (standard column algorithm).heeds p = false) :
      Answered available predicates (standard column algorithm) .none
  | standard_list {column table own : String} {algorithm : Algorithm.Standard}
      {values : List Value} {answers : List (Option String)}
      (first : predicates.find? (·.isAbout column) = some (.list table own values))
      (answered : List.Forall₂ (fun v answer =>
        algorithm.precise available ⟨table, column, v⟩ = .ok answer) values answers) :
      Answered available predicates (standard column algorithm) (some answers.reduceOption)
  | standard_range {column table own : String} {algorithm : Algorithm.Standard}
      {interval : Interval} {returned : List String}
      (first : predicates.find? (·.isAbout column) = some (.range table own interval))
      (answered : algorithm.range available ⟨table, column, interval⟩ = .ok returned) :
      Answered available predicates (standard column algorithm) (some returned)
  | complex_unasked {columns : List String} {algorithm : Algorithm.Complex}
      (unheeded : ∀ p ∈ predicates, (complex columns algorithm).heeds p = false) :
      Answered available predicates (complex columns algorithm) .none
  | complex {columns returned : List String} {algorithm : Algorithm.Complex}
      (heeded : ∃ p ∈ predicates, (complex columns algorithm).heeds p)
      (answered : algorithm.targets available (gatherColumns columns predicates) = .ok returned) :
      Answered available predicates (complex columns algorithm) (some returned)
  | hint_unasked {algorithm : Algorithm.Hint}
      (empty : ∀ table values, .hint table values ∈ predicates → values = []) :
      Answered available predicates (hint algorithm) .none
  | hint {algorithm : Algorithm.Hint} {returned : List String}
      (given : ∃ table values, .hint table values ∈ predicates ∧ values ≠ [])
      (answered : algorithm.targets available (gatherHints predicates) = .ok returned) :
      Answered available predicates (hint algorithm) (some returned)

/-- The available names that an answer picks, in canonical form. -/
structure Canonical (available : List String) (answer : Option (List String))
    (names : List String) : Prop where
  ascending : names.Pairwise fun a b => Name.fold a < Name.fold b
  first_spelling : ∀ name ∈ names, Name.find? available name = some name
  isIn_iff : ∀ name, Name.isIn names name ↔ Name.isIn available name ∧ Picks answer name

/-- The answers pick the same of the available names. -/
def PickAlike (available : List String) (answer other : Option (List String)) : Prop :=
  ∀ name, Name.isIn available name → (Picks answer name ↔ Picks other name)

variable {available names others : List String} {answer other : Option (List String)}

theorem Canonical.mem_of_mem (h : Canonical available answer names)
    (hother : Canonical available other others) (halike : PickAlike available answer other)
    {name : String} (hname : name ∈ names) : name ∈ others := by
  obtain ⟨havailable, hpicked⟩ := (h.isIn_iff name).1 (Name.isIn_of_mem hname)
  have hin := (hother.isIn_iff name).2 ⟨havailable, (halike name havailable).1 hpicked⟩
  obtain ⟨spelled, hspelled, hfold⟩ := Name.isIn_iff.1 hin
  have hfirst : some spelled = some name := by
    rw [← hother.first_spelling spelled hspelled, Name.find?_congr available hfold,
      h.first_spelling name hname]
  exact Option.some.inj hfirst ▸ hspelled

theorem PickAlike.symm (h : PickAlike available answer other) : PickAlike available other answer :=
  fun name havailable => (h name havailable).symm

/-- Ascending names in their first spellings are told by what they pick. -/
theorem Canonical.eq (h : Canonical available answer names)
    (hother : Canonical available other others) (halike : PickAlike available answer other) :
    names = others := by
  have hnodup {names : List String}
      (h : names.Pairwise fun a b => Name.fold a < Name.fold b) : names.Nodup := by
    refine h.imp ?_
    rintro a _ hlt rfl
    exact String.lt_irrefl _ hlt
  have hperm : names.Perm others := by
    rw [List.perm_ext_iff_of_nodup (hnodup h.ascending) (hnodup hother.ascending)]
    exact fun name => ⟨h.mem_of_mem hother halike, hother.mem_of_mem h halike.symm⟩
  refine hperm.eq_of_pairwise (fun a b _ _ hab hba => ?_) h.ascending hother.ascending
  exact absurd hba (String.lt_asymm hab)

/-! ## What a strategy leaves -/

/-- What an answer leaves of the available names. -/
def left (available : List String) : Option (List String) → List String
  | .none => Name.canonical available
  | some returned => restrict available returned

theorem canonical_left (available : List String) (answer : Option (List String)) :
    Canonical available answer (left available answer) := by
  cases answer with
  | none =>
    refine ⟨Name.canonical_ascending _, fun name hname => ?_, fun name => ?_⟩
    · exact Name.find?_of_mem_distinct (Name.mem_canonical.1 hname)
    · simp [left, Name.isIn_canonical]
  | some returned =>
    refine ⟨Name.canonical_ascending _, fun name hname => ?_, fun name => ?_⟩
    · have hfound := Name.distinct_subset _ (Name.mem_canonical.1 hname)
      rw [Name.findAll_eq] at hfound
      obtain ⟨sought, _, hfind⟩ := List.mem_filterMap.1 hfound
      rw [Name.find?_congr available (Name.find?_eq_some hfind).2, hfind]
    · simp [left, restrict, Name.isIn_canonical, Name.isIn_findAll]

theorem resolve_eq_map {strategy : Strategy} (h : strategy.isNone = false) (available : List String)
    (predicates : List Predicate) :
    strategy.resolve available predicates =
      left available <$> strategy.targets? available predicates := by
  cases strategy with
  | none => cases h
  | _ =>
    unfold resolve
    cases targets? _ available predicates with
    | error fault => rfl
    | ok answer => cases answer <;> rfl

/-! ## What a strategy asks -/

variable {predicates : List Predicate}

theorem find?_isAbout_eq_none_iff {column : String} {algorithm : Algorithm.Standard} :
    predicates.find? (·.isAbout column) = Option.none ↔
      ∀ p ∈ predicates, (standard column algorithm).heeds p = false := by
  simp only [heeds_standard, List.find?_eq_none, Bool.not_eq_true]

theorem heeds_eq_false_iff {columns : List String} {algorithm : Algorithm.Complex} {p : Predicate} :
    (complex columns algorithm).heeds p = false ↔
      listed columns p = Option.none ∧ ranged columns p = Option.none := by
  rw [← Bool.not_eq_true, heeds_complex_iff]
  cases p with
  | list table column values => simp [listed, ranged, Predicate.isAbout, Predicate.column,
      Predicate.isHint]
  | range table column interval => simp [listed, ranged, Predicate.isAbout, Predicate.column,
      Predicate.isHint]
  | hint table values => simp [listed, ranged, Predicate.isAbout, Predicate.isHint]

theorem isEmpty_gatherColumns_iff {columns : List String} (algorithm : Algorithm.Complex) :
    ((gatherColumns columns predicates).values.isEmpty &&
        (gatherColumns columns predicates).ranges.isEmpty) = true ↔
      ∀ p ∈ predicates, (complex columns algorithm).heeds p = false := by
  obtain ⟨hvalues, hranges⟩ := gatherColumns_eq_ofList columns predicates
  rw [hvalues, hranges, Bool.and_eq_true, Dictionary.isEmpty_ofList_iff,
    Dictionary.isEmpty_ofList_iff]
  simp only [List.filterMap_eq_nil_iff, heeds_eq_false_iff, forall_and]

theorem isEmpty_gatherHints_iff :
    (gatherHints predicates).values.isEmpty = true ↔
      ∀ table values, .hint table values ∈ predicates → values = [] := by
  simp only [List.isEmpty_iff, List.eq_nil_iff_forall_not_mem, mem_gatherHints]
  grind

theorem targets?_standard_eq_ok_iff {column : String} {algorithm : Algorithm.Standard} :
    (standard column algorithm).targets? available predicates = .ok answer ↔
      Answered available predicates (standard column algorithm) answer := by
  constructor
  · intro h
    cases hfind : predicates.find? (·.isAbout column) with
    | none =>
      rw [targets?_standard_of_none algorithm available hfind] at h
      cases h
      exact .standard_unasked (find?_isAbout_eq_none_iff.1 hfind)
    | some p =>
      rw [targets?_standard algorithm available hfind] at h
      obtain ⟨returned, hreturned, rfl⟩ := map_eq_ok.1 h
      cases p with
      | list table own values =>
        obtain ⟨answers, hanswers, hreturned⟩ := bind_eq_ok.1 hreturned
        cases hreturned
        exact .standard_list hfind (mapM_eq_ok.1 hanswers)
      | range table own interval => exact .standard_range hfind hreturned
      | hint table values => cases List.find?_some hfind
  · intro h
    cases h with
    | standard_unasked hunheeded =>
      exact targets?_standard_of_none algorithm available (find?_isAbout_eq_none_iff.2 hunheeded)
    | standard_list hfind hanswers =>
      rw [targets?_standard algorithm available hfind]
      exact map_eq_ok.2 ⟨_, bind_eq_ok.2 ⟨_, mapM_eq_ok.2 hanswers, rfl⟩, rfl⟩
    | standard_range hfind hreturned =>
      rw [targets?_standard algorithm available hfind]
      exact map_eq_ok.2 ⟨_, hreturned, rfl⟩

/-- What comes of an algorithm that is asked only where there is something to ask it for. -/
theorem askedUnless_eq_ok_iff {unheeded : Prop} [Decidable unheeded]
    {outcome : Except Fault (List String)} :
    (if unheeded then .ok Option.none else some <$> outcome) = .ok answer ↔
      unheeded ∧ answer = Option.none ∨
        ¬unheeded ∧ ∃ returned, outcome = .ok returned ∧ answer = some returned := by
  split
  · next hunheeded => simp [hunheeded, eq_comm]
  · next hheeded =>
    rw [map_eq_ok]
    simp [hheeded, eq_comm]

theorem targets?_complex_eq_ok_iff {columns : List String} {algorithm : Algorithm.Complex} :
    (complex columns algorithm).targets? available predicates = .ok answer ↔
      Answered available predicates (complex columns algorithm) answer := by
  simp only [targets?]
  rw [askedUnless_eq_ok_iff, isEmpty_gatherColumns_iff algorithm]
  constructor
  · rintro (⟨hunheeded, rfl⟩ | ⟨hheeded, returned, hreturned, rfl⟩)
    · exact .complex_unasked hunheeded
    · exact .complex (by simpa using hheeded) hreturned
  · intro h
    cases h with
    | complex_unasked hunheeded => exact .inl ⟨hunheeded, rfl⟩
    | complex hheeded hreturned => exact .inr ⟨by simpa using hheeded, _, hreturned, rfl⟩

theorem targets?_hint_eq_ok_iff {algorithm : Algorithm.Hint} :
    (hint algorithm).targets? available predicates = .ok answer ↔
      Answered available predicates (hint algorithm) answer := by
  simp only [targets?]
  rw [askedUnless_eq_ok_iff, isEmpty_gatherHints_iff]
  constructor
  · rintro (⟨hempty, rfl⟩ | ⟨hgiven, returned, hreturned, rfl⟩)
    · exact .hint_unasked hempty
    · exact .hint (by simpa using hgiven) hreturned
  · intro h
    cases h with
    | hint_unasked hempty => exact .inl ⟨hempty, rfl⟩
    | hint hgiven hreturned => exact .inr ⟨by simpa using hgiven, _, hreturned, rfl⟩

theorem targets?_eq_ok_iff {strategy : Strategy} (h : strategy.isNone = false) :
    strategy.targets? available predicates = .ok answer ↔
      strategy.Answered available predicates answer := by
  cases strategy with
  | standard column algorithm => exact targets?_standard_eq_ok_iff
  | complex columns algorithm => exact targets?_complex_eq_ok_iff
  | hint algorithm => exact targets?_hint_eq_ok_iff
  | none => cases h

theorem Answered.isNone_eq {strategy : Strategy}
    (h : strategy.Answered available predicates answer) : strategy.isNone = false := by
  cases h <;> rfl

theorem Answered.resolve_eq {strategy : Strategy}
    (h : strategy.Answered available predicates answer) :
    strategy.resolve available predicates = .ok (left available answer) := by
  rw [resolve_eq_map h.isNone_eq, (targets?_eq_ok_iff h.isNone_eq).2 h]
  rfl

/-- A strategy with an algorithm, whichever it is, leaves the canonical form of the available names
that the algorithm returned, or of all of them where it was not asked. So answers that pick the same
available names leave the same ones, whatever else they differ in. -/
theorem resolve_canonical {strategy : Strategy} (h : strategy.isNone = false)
    (available : List String) (predicates : List Predicate) :
    (∀ names, strategy.resolve available predicates = .ok names ↔
        ∃ answer, strategy.Answered available predicates answer ∧
          Canonical available answer names) ∧
      ∀ answer, strategy.Answered available predicates answer →
        ∀ (another : Strategy) (others : List Predicate) (other : Option (List String)),
          another.Answered available others other → PickAlike available answer other →
          another.resolve available others = strategy.resolve available predicates := by
  constructor
  · intro names
    rw [resolve_eq_map h, map_eq_ok]
    simp only [targets?_eq_ok_iff h]
    constructor
    · rintro ⟨answer, hanswer, rfl⟩
      exact ⟨answer, hanswer, canonical_left available answer⟩
    · rintro ⟨answer, hanswer, hcanonical⟩
      exact ⟨answer, hanswer, (canonical_left available answer).eq hcanonical fun _ _ => Iff.rfl⟩
  · intro answer hanswer another others other hother halike
    have hleft := (canonical_left available answer).eq (canonical_left available other) halike
    rw [hanswer.resolve_eq, hother.resolve_eq, hleft]

/-- An algorithm that returns the same names whatever it is asked. -/
def returning (names : List String) : Algorithm.Standard where
  type := "RETURNING"
  props := .empty
  check := .ok ()
  precise := fun _ _ => .ok names.head?
  range := fun _ _ => .ok names

theorem resolve_canonical_returning :
    (standard "id" (returning ["B", "x", "a"])).isNone = false ∧
      (standard "id" (returning ["B", "x", "a"])).resolve ["b", "A", "B"] [.range "t" "id" .all] =
        .ok ["A", "b"] ∧
      ∃ answer,
        (standard "id" (returning ["B", "x", "a"])).Answered ["b", "A", "B"]
          [.range "t" "id" .all] answer ∧
        Canonical ["b", "A", "B"] answer ["A", "b"] := by
  have habout : (Predicate.range "t" "id" .all).isAbout "id" :=
    Predicate.isAbout_iff.2 ⟨rfl, Name.same_iff.2 rfl⟩
  have hanswered : (standard "id" (returning ["B", "x", "a"])).Answered ["b", "A", "B"]
      [.range "t" "id" .all] (some ["B", "x", "a"]) :=
    .standard_range (List.find?_cons_of_pos habout) rfl
  have hfolds : ["B", "x", "a", "b", "A"].map Name.fold = ["b", "x", "a", "b", "a"] := by
    decide +kernel
  simp only [List.map_cons, List.map_nil, List.cons.injEq] at hfolds
  have hfound : ["B", "x", "a"].filterMap (Name.find? ["b", "A", "B"]) = ["b", "A"] := by
    simp [Name.find?, hfolds]
  have hresolve : (standard "id" (returning ["B", "x", "a"])).resolve ["b", "A", "B"]
      [.range "t" "id" .all] = .ok ["A", "b"] := by
    rw [hanswered.resolve_eq, left, restrict, Name.findAll_eq, hfound, Name.canonical_eq]
    simp [Name.distinct_cons, hfolds, List.mergeSort, List.MergeSort.Internal.splitInTwo]
  exact ⟨rfl, hresolve, ((resolve_canonical rfl _ _).1 _).1 hresolve⟩

end Sharding.Strategy
