import Sharding.Proofs.Correspondence
import Sharding.Proofs.Numeral
import Sharding.Proofs.Strategy.Faults
import Sharding.Proofs.Strategy.Restatement
/-!
# Integers as texts

An integer and its decimal text are two values that have the same number and the same bytes. The
algorithms that place numbers look at nothing else, so what they find for a predicate does not
depend on which of its values and bounds are written as texts.
-/

namespace Sharding

open Outcome Algorithm

/-- The same value, or an integer and its decimal text in either order. -/
inductive Value.Respells : Value → Value → Prop where
  | same (v : Value) : Respells v v
  | written (n : Int64) : Respells (.int n) (.text (Text.Numeral.print n))
  | read (n : Int64) : Respells (.text (Text.Numeral.print n)) (.int n)

namespace Bound

/-- A bound of the same kind at the same value, which may be respelled. -/
inductive Respells : Bound → Bound → Prop where
  | unbounded : Respells .unbounded .unbounded
  | included {v w : Value} (values : v.Respells w) : Respells (.included v) (.included w)
  | excluded {v w : Value} (values : v.Respells w) : Respells (.excluded v) (.excluded w)

end Bound

structure Interval.Respells (interval other : Interval) : Prop where
  lower : interval.lower.Respells other.lower
  upper : interval.upper.Respells other.upper

/-- The predicate with some of its integers as texts, or some of its texts as integers. Values of
which each counts once may become equal. -/
inductive Predicate.Respells : Predicate → Predicate → Prop where
  | list {table column : String} {values others : List Value}
      (inTurn : List.Forall₂ Value.Respells values others) :
      Respells (.list table column values) (.list table column others)
  | oneOf {table column : String} {values others : List Value}
      (inTurn : List.Forall₂ Value.Respells values others) :
      Respells (.oneOf table column values) (.oneOf table column others)
  | range {table column : String} {interval other : Interval} (bounds : interval.Respells other) :
      Respells (.range table column interval) (.range table column other)
  | hint (table : String) (values : List Value) :
      Respells (.hint table values) (.hint table values)

/-! ## Values and bounds -/

theorem Value.number?_print (n : Int64) : (text (Text.Numeral.print n)).number? = some n := by
  rw [number?, Text.trim_eq_self fun _ => Text.Numeral.isSpace_of_mem_print,
    Text.Numeral.parse?_print]

namespace Value.Respells

variable {v w : Value}

theorem display_eq (h : v.Respells w) : v.display = w.display := by
  cases h <;> rfl

theorem bytes_eq (h : v.Respells w) : v.bytes = w.bytes := by
  rw [bytes, bytes, h.display_eq]

/-- Values that differ are the same number. -/
theorem eq_or_number? (h : v.Respells w) :
    v = w ∨ ∃ n, v.number? = some n ∧ w.number? = some n := by
  cases h with
  | same => exact .inl rfl
  | written n => exact .inr ⟨n, rfl, number?_print n⟩
  | read n => exact .inr ⟨n, number?_print n, rfl⟩

theorem integer_eq (h : v.Respells w) (type : String) : integer type v = integer type w := by
  obtain rfl | ⟨n, hv, hw⟩ := h.eq_or_number?
  · rfl
  · simp only [integer, hv, hw]

theorem numberOf_eq (h : v.Respells w) : Interval.numberOf v = Interval.numberOf w := by
  obtain rfl | ⟨n, hv, hw⟩ := h.eq_or_number?
  · rfl
  · rw [Interval.numberOf_eq_ok.2 hv, Interval.numberOf_eq_ok.2 hw]

end Value.Respells

theorem Bound.Respells.least_eq {bound other : Bound} (h : bound.Respells other) :
    Interval.least bound = Interval.least other := by
  cases h with
  | unbounded => rfl
  | included values | excluded values => simp only [Interval.least, values.numberOf_eq]

theorem Bound.Respells.greatest_eq {bound other : Bound} (h : bound.Respells other) :
    Interval.greatest bound = Interval.greatest other := by
  cases h with
  | unbounded => rfl
  | included values | excluded values => simp only [Interval.greatest, values.numberOf_eq]

theorem Interval.Respells.integers_eq {interval other : Interval} (h : interval.Respells other) :
    interval.integers = other.integers := by
  simp only [integers, h.lower.least_eq, h.upper.greatest_eq]

/-! ## Targets -/

namespace Algorithm.Standard.BuiltIn

variable {a : Standard} (h : a.BuiltIn) (htype : a.type ∈ placingTypes)

include h htype

theorem precise_respelled {v w : Value} (hvalues : v.Respells w) (available : List String)
    (table column : String) :
    a.precise available ⟨table, column, v⟩ = a.precise available ⟨table, column, w⟩ := by
  cases h with
  | inline props => exact absurd htype (show "INLINE" ∉ placingTypes by decide)
  | modulo props => simp only [Algorithm.modulo, byPlace, hvalues.integer_eq]
  | hashModulo props => simp only [Algorithm.hashModulo, byPlace, hvalues.bytes_eq]
  | fixedRange props => simp only [Algorithm.fixedRange, byPartition, hvalues.integer_eq]
  | listedRange props => simp only [Algorithm.listedRange, byPartition, hvalues.integer_eq]

theorem range_respelled {interval other : Interval} (hbounds : interval.Respells other)
    (available : List String) (table column : String) :
    a.range available ⟨table, column, interval⟩ = a.range available ⟨table, column, other⟩ := by
  cases h with
  | inline props => exact absurd htype (show "INLINE" ∉ placingTypes by decide)
  | modulo props => rfl
  | hashModulo props => rfl
  | fixedRange props => simp only [Algorithm.fixedRange, byPartition, hbounds.integers_eq]
  | listedRange props => simp only [Algorithm.listedRange, byPartition, hbounds.integers_eq]

end Algorithm.Standard.BuiltIn

namespace Predicate.Respells

variable {p q : Predicate}

theorem table_eq (h : p.Respells q) : p.table = q.table := by
  cases h <;> rfl

theorem column_eq (h : p.Respells q) : p.column = q.column := by
  cases h <;> rfl

theorem isAbout_eq (h : p.Respells q) (column : String) : p.isAbout column = q.isAbout column := by
  cases h <;> rfl

end Predicate.Respells

/-! ## Strategies -/

theorem sameMembers_map_eraseDups {α β : Type} [DecidableEq α] {f : α → β} {xs ys : List α}
    (h : xs.map f = ys.map f) : SameMembers (xs.eraseDups.map f) (ys.eraseDups.map f) := by
  have hdistinct (zs : List α) : SameMembers (zs.eraseDups.map f) (zs.map f) :=
    SameMembers.map (fun _ => List.mem_eraseDups) f
  intro b
  rw [hdistinct, hdistinct, h]

namespace Strategy

theorem standardTargets_respelled {column : String} {algorithm : Algorithm.Standard}
    (halgorithm : algorithm.BuiltIn) (hcheck : algorithm.check = .ok ())
    (htype : algorithm.type ∈ placingTypes) (available : List String) {p q : Predicate}
    (h : p.Respells q) :
    Agree SameNames (standardTargets column algorithm available p)
      (standardTargets column algorithm available q) := by
  have hprecise (table : String) (v w : Value) (hvw : v.Respells w) :=
    halgorithm.precise_respelled htype hvw available table column
  cases h with
  | @list table own values others inTurn =>
    have hresults := map_eq_map_iff_forall₂.2 (inTurn.imp (hprecise table))
    exact standardTargets_of_sameResults halgorithm hcheck (by rw [hresults]; exact fun _ => Iff.rfl)
      own own
  | @oneOf table own values others inTurn =>
    have hresults := sameMembers_map_eraseDups (map_eq_map_iff_forall₂.2 (inTurn.imp (hprecise table)))
    exact standardTargets_of_sameResults halgorithm hcheck hresults own own
  | range bounds =>
    simp only [standardTargets, halgorithm.range_respelled htype bounds]
    exact Agree.refl (fun _ _ => Iff.rfl) _
  | hint table values => exact fun _ => Iff.rfl

theorem find?_respelled {query respelled : List Predicate}
    (h : List.Forall₂ Predicate.Respells query respelled) (column : String) :
    Option.Rel Predicate.Respells (query.find? (·.isAbout column))
      (respelled.find? (·.isAbout column)) :=
  rel_find? h fun _ _ hpq => hpq.isAbout_eq column

theorem BuiltIn.resolve_respelled {strategy : Strategy} (hstrategy : strategy.BuiltIn)
    (hplaces : strategy.PlacesNumbers) (available : List String) {query respelled : List Predicate}
    (h : List.Forall₂ Predicate.Respells query respelled) :
    Agree SameNames (strategy.resolve available query) (strategy.resolve available respelled) := by
  apply resolve_agree
  cases hstrategy with
  | @standard column algorithm halgorithm hcheck =>
    cases hplaces with
    | standard _ htype =>
      exact targets?_standard_agree (find?_respelled h column) fun _ _ =>
        standardTargets_respelled halgorithm hcheck htype available
  | complex columns props => cases hplaces
  | hint props => cases hplaces
  | none => exact fun _ => Iff.rfl

end Strategy

end Sharding
