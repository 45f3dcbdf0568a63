import Sharding.Proofs.Algorithm.Targets
import Sharding.Proofs.Row
import Sharding.Proofs.Strategy.Resolve
/-!
# A strategy does not lose rows

Two lists of predicates are compared: a point, which pins every column of the strategy, and a query
that holds of the same row. What the strategy picks at the point it also picks for the query.
-/

namespace Sharding.Strategy

open Outcome Algorithm

variable {row : Row} {available : List String} {point query : List Predicate}
variable {home reached : Option (List String)} {name : String}

/-- At the point a strategy on one column asks for the targets of the value of the row. -/
theorem targets?_of_pins (algorithm : Algorithm.Standard) (available : List String)
    {column : String} (hpins : ∀ p ∈ point, p.Pins row)
    (hpinned : ∃ p ∈ point, p.isAbout column) :
    ∃ table own, (standard column algorithm).targets? available point =
      some <$> standardTargets column algorithm available (.list table own [row.at column]) := by
  have hfound : (point.find? (·.isAbout column)).isSome := List.find?_isSome.2 hpinned
  obtain ⟨pin, hpin⟩ := Option.isSome_iff_exists.1 hfound
  obtain ⟨table, own, rfl⟩ := hpins pin (List.mem_of_find?_eq_some hpin)
  have hown : Name.same own column := (Predicate.isAbout_iff.1 (List.find?_some hpin)).2
  refine ⟨table, own, ?_⟩
  rw [targets?_standard algorithm available hpin, row.at_congr hown]

/-- A strategy on one column keeps what it picks at the point. -/
theorem standard_covers {column : String} {algorithm : Algorithm.Standard}
    (halgorithm : algorithm.BuiltIn) (hpins : ∀ p ∈ point, p.Pins row)
    (hpinned : ∃ p ∈ point, p.isAbout column) (hholds : ∀ p ∈ query, p.Holds row)
    (hhome : (standard column algorithm).targets? available point = .ok home)
    (hreached : (standard column algorithm).targets? available query = .ok reached)
    (hpicks : Picks home name) : Picks reached name := by
  obtain ⟨table, own, hpoint⟩ := targets?_of_pins algorithm available hpins hpinned
  obtain ⟨targets, htargets, rfl⟩ := map_eq_ok.1 (hpoint.symm.trans hhome)
  obtain ⟨v, hv, target, htarget, hfold⟩ :=
    (isIn_standardTargets_list htargets).1 (picks_some.1 hpicks)
  cases List.mem_singleton.1 hv
  cases hquery : query.find? (·.isAbout column) with
  | none =>
    rw [targets?_standard_of_none algorithm available hquery] at hreached
    cases hreached
    exact picks_none name
  | some predicate =>
    rw [targets?_standard algorithm available hquery] at hreached
    obtain ⟨names, hnames, rfl⟩ := map_eq_ok.1 hreached
    have hholds := hholds predicate (List.mem_of_find?_eq_some hquery)
    obtain ⟨hnoHint, habout⟩ := Predicate.isAbout_iff.1 (List.find?_some hquery)
    apply picks_some.2
    cases predicate with
    | list other column' values =>
      rw [halgorithm.precise_eq available table other] at htarget
      have hv : row.at column ∈ values := row.at_congr habout ▸ hholds
      exact (isIn_standardTargets_list hnames).2 ⟨_, hv, target, htarget, hfold⟩
    | range other column' interval =>
      have hadmits : ∀ n, (row.at column).number? = some n → interval.Admits n :=
        row.at_congr habout ▸ hholds
      rw [← Name.isIn_congr names hfold]
      exact halgorithm.range_covers htarget hnames hadmits
    | hint other values => cases hnoHint

/-! ## Several columns -/

variable {columns : List String}

/-- The first of the columns that a column stands for has the same values in every row. -/
theorem at_of_find? {column c : String} (h : columns.find? (Name.same column ·) = some c) :
    row.at column = row.at c :=
  row.at_congr (List.find?_some h)

theorem values_of_pins (hpins : ∀ p ∈ point, p.Pins row) :
    ∀ entry ∈ (gatherColumns columns point).values.entries, entry.2 = [row.at entry.1] := by
  rintro ⟨c, values⟩ hentry
  have hget := Dictionary.get?_eq_some_iff.2 hentry
  obtain ⟨table, column, hmem, hfind⟩ := get?_values_gatherColumns hget
  obtain ⟨_, _, heq⟩ := hpins _ hmem
  cases heq
  rw [at_of_find? hfind]

theorem mem_values_of_holds (columns : List String) (hholds : ∀ p ∈ query, p.Holds row) :
    ∀ entry ∈ (gatherColumns columns query).values.entries, row.at entry.1 ∈ entry.2 := by
  intro entry hentry
  have hget := Dictionary.get?_eq_some_iff.2 hentry
  obtain ⟨table, column, hmem, hfind⟩ := get?_values_gatherColumns hget
  rw [← at_of_find? hfind]
  exact hholds _ hmem

/-- Values are gathered at the point for every column that has some in the query. -/
theorem keys_subset_of_pins (query : List Predicate) (hpins : ∀ p ∈ point, p.Pins row)
    (hpinned : ∀ column ∈ columns, ∃ p ∈ point, p.isAbout column) :
    (gatherColumns columns query).values.entries.map (·.1) ⊆
      (gatherColumns columns point).values.entries.map (·.1) := by
  intro c hc
  obtain ⟨⟨c, values⟩, hentry, rfl⟩ := List.mem_map.1 hc
  have hget := Dictionary.get?_eq_some_iff.2 hentry
  obtain ⟨table, column, _, hfind⟩ := get?_values_gatherColumns hget
  obtain ⟨pin, hpin, habout⟩ := hpinned _ (List.mem_of_find?_eq_some hfind)
  obtain ⟨other, own, rfl⟩ := hpins pin hpin
  have hown : Name.fold own = Name.fold c := Name.same_iff.1 (Predicate.isAbout_iff.1 habout).2
  have hcolumn : Name.fold column = Name.fold c := Name.same_iff.1 (List.find?_some hfind)
  have hfindOwn : columns.find? (Name.same own ·) = some c := by
    rw [find?_same_congr columns (Name.same_iff.2 (hown.trans hcolumn.symm)), hfind]
  obtain ⟨gathered, hgathered⟩ := exists_values_gatherColumns hpin hfindOwn
  exact List.mem_map.2 ⟨_, Dictionary.get?_eq_some_iff.1 hgathered, rfl⟩

theorem ranges_of_pins (hpins : ∀ p ∈ point, p.Pins row) :
    (gatherColumns columns point).ranges.isEmpty := by
  apply Dictionary.isEmpty_iff.2
  apply ranges_gatherColumns_of_lists
  intro predicate hpredicate
  obtain ⟨table, column, heq⟩ := hpins predicate hpredicate
  exact ⟨table, column, _, heq⟩

/-- A strategy on several columns keeps what it picks at the point, for the query has no column of
its own: the name that the expression has under the columns of the query it has at the point. -/
theorem complex_covers {props : Properties} (hpins : ∀ p ∈ point, p.Pins row)
    (hpinned : ∀ column ∈ columns, ∃ p ∈ point, p.isAbout column)
    (hholds : ∀ p ∈ query, p.Holds row)
    (hhome : (complex columns (complexInline props)).targets? available point = .ok home)
    (hreached : (complex columns (complexInline props)).targets? available query = .ok reached)
    (havailable : Name.isIn available name) (hpicks : Picks home name) : Picks reached name := by
  intro names hnames
  have hsubset := keys_subset_of_pins query hpins hpinned
  rcases targets?_complex_eq_ok hreached with ⟨_, _, hnone⟩ | ⟨hsome, _, heq, hquery⟩
  · cases hnone.symm.trans hnames
  cases heq.symm.trans hnames
  rcases complexInline_eq_ok hquery with ⟨_, hall⟩ | ⟨hnoRange, expression, hexpression, hquery⟩
  · exact hall ▸ havailable
  -- the query has values and no range, so the point has values too
  have hvalues : (gatherColumns columns point).values.isEmpty = false := by
    rcases hsome with hsome | hrange
    · rw [← Bool.not_eq_true, Dictionary.isEmpty, List.isEmpty_iff] at hsome ⊢
      intro hnil
      rw [hnil] at hsubset
      exact hsome (List.map_eq_nil_iff.1 (List.subset_nil.1 hsubset))
    · cases hrange.symm.trans hnoRange
  rcases targets?_complex_eq_ok hhome with ⟨hnone, _⟩ | ⟨_, targets, rfl, hpoint⟩
  · cases hnone.symm.trans hvalues
  rcases complexInline_eq_ok hpoint with ⟨hrange, _⟩ | ⟨_, _, hsame, hpoint⟩
  · cases hrange.symm.trans (ranges_of_pins hpins)
  cases hexpression.symm.trans hsame
  rw [combinations_of_single (values_of_pins hpins)] at hpoint
  obtain ⟨each, heach, target, htarget, hfold⟩ := (isIn_namedTargets hpoint).1 (picks_some.1 hpicks)
  cases List.mem_singleton.1 heach
  -- one combination of the query has the values of the row, in no more columns than the point
  have hmem := bindColumns_mem_combinations (mem_values_of_holds columns hholds)
  obtain ⟨found, hfound⟩ := exists_namedTarget hquery hmem
  have hwide := namedTarget_within (within_bindColumns hsubset) hfound
  cases hwide.symm.trans htarget
  exact (isIn_namedTargets hquery).2 ⟨_, hmem, target, hfound, hfold⟩

/-! ## Any strategy -/

theorem BuiltIn.resolve_covers {strategy : Strategy} (hstrategy : strategy.BuiltIn)
    (hnoHint : strategy.isHint = false) (hpins : ∀ p ∈ point, p.Pins row)
    (hpinned : ∀ column ∈ strategy.columns, ∃ p ∈ point, p.isAbout column)
    (hholds : ∀ p ∈ query, p.Holds row) {homes places : List String}
    (hhome : strategy.resolve available point = .ok homes)
    (hreached : strategy.resolve available query = .ok places)
    (hname : Name.isIn homes name) : Name.isIn places name := by
  obtain ⟨home, htargets, hhomes⟩ := resolve_eq_ok hhome
  obtain ⟨reached, hquery, hplaces⟩ := resolve_eq_ok hreached
  obtain ⟨havailable, hpicks⟩ := (hhomes name).1 hname
  apply (hplaces name).2
  refine ⟨havailable, ?_⟩
  cases hstrategy with
  | standard column halgorithm hcheck =>
    have hpinned := hpinned column (List.mem_singleton_self column)
    exact standard_covers halgorithm hpins hpinned hholds htargets hquery hpicks
  | complex columns props =>
    exact complex_covers hpins hpinned hholds htargets hquery havailable hpicks
  | hint props => cases hnoHint
  | none =>
    cases hquery
    exact picks_none name

end Sharding.Strategy
