import Sharding.Algorithm.Expression
import Sharding.Proofs.Dictionary
import Sharding.Proofs.Inline.Extension
import Sharding.Proofs.Inline.Meaning
import Sharding.Proofs.Inline.Product
import Sharding.Proofs.Name
/-!
# The targets of expressions

An expression over several columns has a target for each combination of their values. Where it has
a name under some columns already, more columns do not change that name.
-/

namespace Sharding.Algorithm

open Outcome

theorem mem_of_namedTarget {available : List String} {expression : String}
    {bindings : Inline.Bindings} {target : String}
    (h : namedTarget available expression bindings = .ok (some target)) : target ∈ available := by
  unfold namedTarget at h
  split at h
  · exact (Name.find?_eq_some (Except.ok.inj h)).1
  · cases h

theorem namedTarget_within {narrow wide : Inline.Bindings} (hwithin : Inline.Within narrow wide)
    {available : List String} {expression : String} {found : Option String}
    (h : namedTarget available expression narrow = .ok found) :
    namedTarget available expression wide = .ok found := by
  unfold namedTarget at h ⊢
  cases hname : Inline.expandOne expression narrow with
  | error fault =>
    rw [hname] at h
    cases h
  | ok name =>
    rw [hname] at h
    rw [Inline.expandOne_within hwithin hname]
    exact h

theorem exists_namedTarget {available : List String} {expression : String}
    {bindings : List Inline.Bindings} {names : List String}
    (h : namedTargets available expression bindings = .ok names) {each : Inline.Bindings}
    (heach : each ∈ bindings) : ∃ found, namedTarget available expression each = .ok found := by
  obtain ⟨targets, htargets, _⟩ := bind_eq_ok.1 h
  exact exists_of_mapM htargets heach

theorem isIn_namedTargets {available : List String} {expression : String}
    {bindings : List Inline.Bindings} {names : List String}
    (h : namedTargets available expression bindings = .ok names) {name : String} :
    Name.isIn names name ↔ ∃ each ∈ bindings, ∃ target,
      namedTarget available expression each = .ok (some target) ∧
        Name.fold target = Name.fold name := by
  obtain ⟨targets, htargets, h⟩ := bind_eq_ok.1 h
  rw [← Except.ok.inj h, Name.isIn_distinct, Name.isIn_iff]
  simp only [mem_filterMap_of_mapM htargets]
  constructor
  · rintro ⟨target, ⟨each, heach, htarget⟩, hfold⟩
    exact ⟨each, heach, target, htarget, hfold⟩
  · rintro ⟨each, heach, target, htarget, hfold⟩
    exact ⟨target, ⟨each, heach, htarget⟩, hfold⟩

/-! ## Hint values as names -/

theorem render_datum (v : Value) : v.datum.render = [v.display] := by
  cases v <;> rw [Value.datum, Inline.Datum.render, Value.display]

theorem evaluate_value (datum : Inline.Datum) :
    Inline.evaluate ['v', 'a', 'l', 'u', 'e'] [("value", datum)] = .ok datum := by
  have htokens : Inline.Token.readAll ['v', 'a', 'l', 'u', 'e'] = .ok [.word "value"] :=
    eq_ok_of_toOption (by decide +kernel)
  have hread : Inline.Expr.ofTokens [.word "value"] = .variable "value" := by
    simp [Inline.Expr.ofTokens, Inline.Phrase.range, Inline.Phrase.additive, Inline.Phrase.term,
      Inline.Phrase.unary, Inline.Phrase.primary, Inline.Phrase.factors, Inline.Phrase.addends,
      Inline.Phrase.upTo]
  refine bind_eq_ok.2 ⟨_, htokens, ?_⟩
  rw [hread]
  exact Inline.Expr.eval_variable.2 rfl

theorem expandOne_value (v : Value) :
    Inline.expandOne "$\x7bvalue\x7d" [("value", v.datum)] = .ok v.display := by
  have hscan : Inline.Template.scan (Text.trim "$\x7bvalue\x7d").toList =
      some [.placeholder ['v', 'a', 'l', 'u', 'e']] := by
    decide +kernel
  refine Inline.expandOne_eq_ok_iff.2 ?_
  rw [Inline.expand, Inline.expandTrimmed, hscan]
  simp [Inline.expandFrom, Inline.Segment.alternatives, evaluate_value, render_datum,
    Inline.extend, Inline.maxNames]
  rfl

/-- Without an expression of its own, hint values are themselves the names. -/
theorem hintInline_empty (available : List String) (given : Given) :
    (hintInline .empty).targets available given =
      .ok (Name.distinct (given.values.filterMap fun v => Name.find? available v.display)) := by
  have hname (v : Value) : namedTarget available "$\x7bvalue\x7d" [("value", v.datum)] =
      .ok (Name.find? available v.display) := by
    rw [namedTarget, expandOne_value]
  have htargets : (given.values.map fun v => [("value", v.datum)]).mapM
      (namedTarget available "$\x7bvalue\x7d") =
        .ok (given.values.map fun v => Name.find? available v.display) := by
    rw [mapM_eq_ok, List.forall₂_map_left_iff, List.forall₂_map_right_iff, List.forall₂_same]
    exact fun v _ => hname v
  refine bind_eq_ok.2 ⟨_, htargets, ?_⟩
  rw [List.filterMap_map]
  rfl

theorem rangeTargetsIfAllowed_eq_ok {type : String} {props : Properties}
    {available names : List String} (h : rangeTargetsIfAllowed type props available = .ok names) :
    names = available := by
  unfold rangeTargetsIfAllowed at h
  split at h <;> cases h
  rfl

/-! ## Several columns -/

/-- The columns bound to their values. -/
def bindColumns (value : String → Value) (columns : List String) : Inline.Bindings :=
  columns.map fun column => (column, (value column).datum)

theorem bindColumns_cons (value : String → Value) (column : String) (columns : List String) :
    bindColumns value (column :: columns) =
      (column, (value column).datum) :: bindColumns value columns := rfl

theorem bindColumns_congr {value other : String → Value} {columns : List String}
    (h : ∀ column ∈ columns, value column = other column) :
    bindColumns value columns = bindColumns other columns := by
  apply List.map_congr_left
  intro column hcolumn
  rw [h column hcolumn]

theorem lookup_bindColumns {value : String → Value} {columns : List String} {name : String}
    {datum : Inline.Datum} :
    (bindColumns value columns).lookup name = some datum ↔
      name ∈ columns ∧ (value name).datum = datum := by
  induction columns with
  | nil => simp [bindColumns]
  | cons column columns ih =>
    have hrest : (columns.map fun column => (column, (value column).datum)).lookup name =
        some datum ↔ name ∈ columns ∧ (value name).datum = datum := ih
    rw [bindColumns, List.map_cons, Dictionary.lookup_cons, List.mem_cons]
    by_cases hname : name = column
    · simp [hname]
    · simp [hname, hrest]

theorem within_bindColumns {value : String → Value} {columns more : List String}
    (h : columns ⊆ more) : Inline.Within (bindColumns value columns) (bindColumns value more) := by
  intro name datum hlookup
  obtain ⟨hmem, hdatum⟩ := lookup_bindColumns.1 hlookup
  exact lookup_bindColumns.2 ⟨h hmem, hdatum⟩

theorem bindColumns_mem_combinations {value : String → Value} {entries : List (String × List Value)}
    (h : ∀ entry ∈ entries, value entry.1 ∈ entry.2) :
    bindColumns value (entries.map (·.1)) ∈ combinations entries := by
  induction entries with
  | nil => exact List.mem_singleton_self _
  | cons entry entries ih =>
    obtain ⟨hentry, hrest⟩ := List.forall_mem_cons.1 h
    obtain ⟨column, values⟩ := entry
    rw [combinations]
    apply List.mem_flatMap.2
    exact ⟨value column, hentry, List.mem_map.2 ⟨_, ih hrest, rfl⟩⟩

theorem combinations_of_single {value : String → Value} {entries : List (String × List Value)}
    (h : ∀ entry ∈ entries, entry.2 = [value entry.1]) :
    combinations entries = [bindColumns value (entries.map (·.1))] := by
  induction entries with
  | nil => rfl
  | cons entry entries ih =>
    obtain ⟨hentry, hrest⟩ := List.forall_mem_cons.1 h
    obtain ⟨column, values⟩ := entry
    dsimp only at hentry
    rw [combinations, hentry, ih hrest]
    rfl

/-- Each combination binds the columns to one of their values each. -/
theorem exists_of_mem_combinations {entries : List (String × List Value)}
    (hkeys : (entries.map (·.1)).Nodup) {each : Inline.Bindings}
    (h : each ∈ combinations entries) :
    ∃ value : String → Value, each = bindColumns value (entries.map (·.1)) ∧
      ∀ entry ∈ entries, value entry.1 ∈ entry.2 := by
  induction entries generalizing each with
  | nil => exact ⟨fun _ => .int 0, List.mem_singleton.1 h, List.forall_mem_nil _⟩
  | cons entry entries ih =>
    obtain ⟨column, values⟩ := entry
    obtain ⟨hnew, hkeys⟩ := List.nodup_cons.1 hkeys
    obtain ⟨v, hv, h⟩ := List.mem_flatMap.1 h
    obtain ⟨rest, hrest, rfl⟩ := List.mem_map.1 h
    obtain ⟨value, rfl, hvalue⟩ := ih hkeys hrest
    have hother : ∀ other ∈ entries.map (·.1),
        Function.update value column v other = value other := by
      intro other hother
      apply Function.update_of_ne
      rintro rfl
      exact hnew hother
    refine ⟨Function.update value column v, ?_, List.forall_mem_cons.2 ⟨?_, ?_⟩⟩
    · rw [List.map_cons, bindColumns_cons, Function.update_self, bindColumns_congr hother]
    · rwa [Function.update_self]
    · intro entry hentry
      rw [hother entry.1 (List.mem_map_of_mem hentry)]
      exact hvalue entry hentry

/-- A range leaves every name. Without one the values of the columns are combined. -/
theorem complexInline_eq_ok {props : Properties} {available names : List String}
    {columns : Columns} (h : (complexInline props).targets available columns = .ok names) :
    columns.ranges.isEmpty = false ∧ names = available ∨
      columns.ranges.isEmpty = true ∧
        ∃ expression, props.text "COMPLEX_INLINE" "algorithm-expression" = .ok expression ∧
          namedTargets available expression (combinations columns.values.entries) = .ok names := by
  simp only [complexInline] at h
  by_cases hranges : columns.ranges.isEmpty
  · rw [hranges, Bool.not_true, if_neg Bool.false_ne_true] at h
    split at h
    · cases h
    · exact .inr ⟨hranges, bind_eq_ok.1 h⟩
  · rw [Bool.not_eq_true] at hranges
    rw [hranges, Bool.not_false, if_pos rfl] at h
    exact .inl ⟨hranges, rangeTargetsIfAllowed_eq_ok h⟩

end Sharding.Algorithm
