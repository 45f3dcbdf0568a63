import Sharding.Proofs.Algorithm.Targets
import Sharding.Proofs.Correspondence
/-!
# Corresponding targets

An algorithm that counts places picks corresponding names of corresponding lists. One that evaluates
an expression does so where the names of both lists are the same but for their spelling.
-/

namespace Sharding.Algorithm

open Outcome Name

variable {R : String → String → Prop} {available others : List String}

theorem targetAt_rel (h : List.Forall₂ R available others) (place : Nat) :
    Option.Rel R (targetAt available place) (targetAt others place) := by
  unfold targetAt
  rw [h.length_eq]
  generalize place % others.length = place
  induction h generalizing place with
  | nil => exact .none
  | cons hfirst _ ih =>
    cases place with
    | zero => exact .some hfirst
    | succ place => exact ih place

theorem preciseTarget_rel (h : List.Forall₂ R available others) (partitions : List Partition)
    (n : Int) :
    Option.Rel R (preciseTarget partitions available n) (preciseTarget partitions others n) := by
  unfold preciseTarget
  cases partitions.findIdx? (·.contains n) with
  | none => exact .none
  | some place => exact targetAt_rel h place

theorem rangeTargets_rel (hR : Faithful R) (h : List.Forall₂ R available others)
    (partitions : List Partition) (low high : Int) :
    List.Forall₂ R (rangeTargets partitions available low high)
      (rangeTargets partitions others low high) := by
  unfold rangeTargets
  apply hR.forall₂_distinct
  apply List.rel_filterMap (R := Eq) _ (List.forall₂_refl _)
  rintro ⟨partition, place⟩ _ rfl
  dsimp only
  by_cases hmeets : partition.intersects low high
  · rw [if_pos hmeets, if_pos hmeets]
    exact targetAt_rel h place
  · rw [if_neg hmeets, if_neg hmeets]
    exact .none

/-- On corresponding names two algorithms, each asked about its own column, have corresponding
targets, or fail alike. -/
structure Standard.Alike (R : String → String → Prop) (column other : String) (a b : Standard) :
    Prop where
  precise : ∀ {available others}, List.Forall₂ R available others → ∀ table table' v,
    Agree (Option.Rel R) (a.precise available ⟨table, column, v⟩)
      (b.precise others ⟨table', other, v⟩)
  range : ∀ {available others}, List.Forall₂ R available others → ∀ table table' interval,
    Agree (List.Forall₂ R) (a.range available ⟨table, column, interval⟩)
      (b.range others ⟨table', other, interval⟩)

theorem byPlace_alike (type : String) (props : Properties)
    (place : Value → Int → Except Fault Nat) (column other : String) :
    Standard.Alike R column other (byPlace type props place) (byPlace type props place) := by
  constructor
  · intro available others h table table' v
    apply Agree.bind_same
    intro count
    apply Agree.map_same
    intro n
    exact targetAt_rel h n
  · intro available others h table table' interval
    exact h

theorem byPartition_alike (hR : Faithful R) (type : String) (props : Properties)
    (table : Except Fault (List Partition)) (column other : String) :
    Standard.Alike R column other (byPartition type props table) (byPartition type props table) := by
  constructor
  · intro available others h _ _ v
    apply Agree.bind_same
    intro partitions
    apply Agree.bind_same
    intro n
    exact preciseTarget_rel h partitions n.toInt
  · intro available others h _ _ interval
    apply Agree.bind_same
    intro partitions
    cases interval.integers with
    | error bound => exact rfl
    | ok found =>
      cases found with
      | none => exact .nil
      | some ends => exact rangeTargets_rel hR h partitions ends.1.toInt ends.2.toInt

/-- Algorithms that place numbers look at nothing but the places of names. -/
theorem Standard.BuiltIn.alike_of_placing {a : Standard} (h : a.BuiltIn)
    (htype : a.type ∈ placingTypes) (hR : Faithful R) (column other : String) :
    Standard.Alike R column other a a := by
  cases h with
  | inline props => exact absurd htype (show "INLINE" ∉ placingTypes by decide)
  | modulo props => exact byPlace_alike ..
  | hashModulo props => exact byPlace_alike ..
  | fixedRange props => exact byPartition_alike hR ..
  | listedRange props => exact byPartition_alike hR ..

/-! ## The same names -/

theorem namedTarget_agree (h : List.Forall₂ (fun a b => fold a = fold b) available others)
    (expression : String) (bindings : Inline.Bindings) :
    Agree (Option.Rel fun a b => fold a = fold b) (namedTarget available expression bindings)
      (namedTarget others expression bindings) := by
  unfold namedTarget
  cases Inline.expandOne expression bindings with
  | ok name => exact find?_rel h name
  | error fault => exact rfl

theorem namedTargets_agree (h : List.Forall₂ (fun a b => fold a = fold b) available others)
    (expression : String) (bindings : List Inline.Bindings) :
    Agree (List.Forall₂ fun a b => fold a = fold b) (namedTargets available expression bindings)
      (namedTargets others expression bindings) := by
  have htargets := Agree.mapM_same bindings (namedTarget_agree h expression)
  apply htargets.bind
  intro targets same hsame
  apply faithful_fold.forall₂_distinct
  exact List.rel_filterMap (fun _ _ h => h) hsame

theorem rangeTargetsIfAllowed_agree (type : String) (props : Properties)
    (h : List.Forall₂ R available others) :
    Agree (List.Forall₂ R) (rangeTargetsIfAllowed type props available)
      (rangeTargetsIfAllowed type props others) := by
  unfold rangeTargetsIfAllowed
  by_cases hallowed : props.flag "allow-range-query-with-inline-sharding"
  · rw [if_pos hallowed, if_pos hallowed]
    exact h
  · rw [if_neg hallowed, if_neg hallowed]
    exact rfl

/-- Under the same names every built-in algorithm has the same targets. -/
theorem Standard.BuiltIn.alike_of_fold {a : Standard} (h : a.BuiltIn) (column : String) :
    Standard.Alike (fun a b => fold a = fold b) column column a a := by
  cases h with
  | inline props =>
    constructor
    · intro available others h _ _ v
      apply Agree.bind_same
      intro expression
      exact namedTarget_agree h expression _
    · intro available others h _ _ interval
      exact rangeTargetsIfAllowed_agree "INLINE" props h
  | modulo props => exact byPlace_alike ..
  | hashModulo props => exact byPlace_alike ..
  | fixedRange props => exact byPartition_alike faithful_fold ..
  | listedRange props => exact byPartition_alike faithful_fold ..

theorem complexInline_agree (props : Properties)
    (h : List.Forall₂ (fun a b => fold a = fold b) available others) {columns same : Columns}
    (hvalues : columns.values = same.values) (hranges : columns.ranges = same.ranges) :
    Agree (List.Forall₂ fun a b => fold a = fold b)
      ((complexInline props).targets available columns)
      ((complexInline props).targets others same) := by
  simp only [complexInline, ← hvalues, ← hranges]
  split
  · exact rangeTargetsIfAllowed_agree "COMPLEX_INLINE" props h
  · split
    · exact rfl
    · apply Agree.bind_same
      intro expression
      exact namedTargets_agree h expression _

end Sharding.Algorithm
