import Sharding.Proofs.Row
import Sharding.Proofs.Strategy.Resolve
/-!
# What a strategy heeds

A strategy goes by the predicates about its columns or, if it is a hint strategy, by hints. All
others can be left out of what it is asked.
-/

namespace Sharding.Strategy

/-- The strategy goes by the predicate. -/
def heeds (strategy : Strategy) (predicate : Predicate) : Bool :=
  match strategy with
  | hint _ => predicate.isHint
  | standard _ _ | complex _ _ | none =>
    !predicate.isHint && strategy.isShardingColumn predicate.column

theorem heeds_of_isHint {strategy : Strategy} (h : strategy.isHint) (p : Predicate) :
    strategy.heeds p = p.isHint := by
  cases strategy with
  | hint algorithm => rfl
  | _ => cases h

theorem heeds_of_noHint {strategy : Strategy} (h : strategy.isHint = false) (p : Predicate) :
    strategy.heeds p = (!p.isHint && strategy.isShardingColumn p.column) := by
  cases strategy with
  | hint algorithm => cases h
  | _ => rfl

/-- A fold passes over what leaves every state as it is. -/
theorem foldl_filter_of_neutral {α β : Type} {step : β → α → β} {keep : α → Bool}
    (hneutral : ∀ state a, keep a = false → step state a = state) (entries : List α) (init : β) :
    (entries.filter keep).foldl step init = entries.foldl step init := by
  rw [List.foldl_filter]
  congr 1
  funext state a
  cases hkeep : keep a with
  | true => rfl
  | false => exact (hneutral state a hkeep).symm

theorem heeds_standard (column : String) (algorithm : Algorithm.Standard) (p : Predicate) :
    (standard column algorithm).heeds p = p.isAbout column := by
  have hcolumn : (standard column algorithm).isShardingColumn p.column =
      Name.same p.column column := by
    rw [Bool.eq_iff_iff, Name.same_iff, eq_comm (a := Name.fold p.column)]
    exact Name.isIn_singleton
  rw [heeds_of_noHint rfl, hcolumn, Predicate.isAbout]

theorem heeds_complex_iff {columns : List String} {algorithm : Algorithm.Complex} {p : Predicate} :
    (complex columns algorithm).heeds p ↔ ∃ column ∈ columns, p.isAbout column := by
  have hcolumn (column : String) :
      Name.fold column = Name.fold p.column ↔ Name.same p.column column :=
    eq_comm.trans Name.same_iff.symm
  rw [heeds_of_noHint rfl, Bool.and_eq_true, isShardingColumn, Name.isIn_iff]
  simp only [hcolumn, Strategy.columns, Predicate.isAbout, Bool.and_eq_true]
  grind

theorem find?_filter_heeds (column : String) (algorithm : Algorithm.Standard)
    (predicates : List Predicate) :
    (predicates.filter (standard column algorithm).heeds).find? (·.isAbout column) =
      predicates.find? (·.isAbout column) := by
  rw [List.find?_filter]
  congr 1
  funext p
  simp only [heeds_standard, and_self, Bool.decide_eq_true]

theorem gatherColumns_filter_heeds (columns : List String) (algorithm : Algorithm.Complex)
    (predicates : List Predicate) :
    gatherColumns columns (predicates.filter (complex columns algorithm).heeds) =
      gatherColumns columns predicates := by
  apply foldl_filter_of_neutral
  intro gathered p hheeds
  have hfind : columns.find? (p.isAbout ·) = Option.none := by
    rw [List.find?_eq_none]
    intro column hcolumn habout
    rw [heeds_complex_iff.2 ⟨column, hcolumn, habout⟩] at hheeds
    cases hheeds
  simp only [gatherColumn, hfind]

theorem gatherHints_filter_heeds (algorithm : Algorithm.Hint) (predicates : List Predicate) :
    gatherHints (predicates.filter (hint algorithm).heeds) = gatherHints predicates := by
  apply foldl_filter_of_neutral
  intro gathered p hnoHint
  cases p with
  | hint table values => cases hnoHint
  | _ => rfl

theorem targets?_filter_heeds (strategy : Strategy) (available : List String)
    (predicates : List Predicate) :
    strategy.targets? available (predicates.filter strategy.heeds) =
      strategy.targets? available predicates := by
  cases strategy with
  | standard column algorithm => rw [targets?, find?_filter_heeds, targets?]
  | complex columns algorithm => rw [targets?, gatherColumns_filter_heeds, targets?]
  | hint algorithm => rw [targets?, gatherHints_filter_heeds, targets?]
  | none => rfl

/-- Predicates among which a strategy heeds the same ones leave it the same names. -/
theorem resolve_congr {strategy : Strategy} {predicates others : List Predicate}
    (h : predicates.filter strategy.heeds = others.filter strategy.heeds)
    (available : List String) :
    strategy.resolve available predicates = strategy.resolve available others := by
  have htargets : strategy.targets? available predicates = strategy.targets? available others := by
    rw [← targets?_filter_heeds, h, targets?_filter_heeds]
  cases strategy with
  | none => rfl
  | _ => simp only [resolve, htargets]

end Sharding.Strategy
