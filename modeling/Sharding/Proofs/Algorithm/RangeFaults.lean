import Sharding.Proofs.Algorithm.Boundaries
import Sharding.Proofs.Algorithm.RangeLookup
/-!
# Ranges that are refused

An algorithm that cuts the integers needs numbers as the bounds of a range, and blames the first one
that is none. It does not come to look at an upper bound where no integer lies above the lower one.
-/

namespace Sharding.Algorithm

open Outcome

variable {partitions : List Partition} {available : List String}

theorem range_byPartition_eq_error_iff {type : String} {props : Properties}
    {table : Except Fault (List Partition)} (htable : table = .ok partitions) {span : Span}
    {fault : Fault} :
    (byPartition type props table).range available span = .error fault ↔
      ∃ bound, span.interval.integers = .error bound ∧
        fault = .value (.boundNotInteger type bound) := by
  subst htable
  simp only [byPartition, bind, Except.bind]
  cases span.interval.integers with
  | error bound => simp [eq_comm]
  | ok found => cases found <;> simp

theorem range_byPartition_of_pastAll {type : String} {props : Properties}
    {table : Except Fault (List Partition)} (htable : table = .ok partitions) {span : Span}
    (hpast : Interval.PastAll span.interval.lower) :
    (byPartition type props table).range available span = .ok [] := by
  have hnone : span.interval.integers = .ok none := by
    rw [Interval.integers, Interval.least_eq_none_iff.2 hpast]
    rfl
  subst htable
  simp only [byPartition, hnone, bind, Except.bind]

/-- A range is refused exactly where one of its bounds is no number, and the first such bound is
named. Only where nothing lies above the lower bound is it empty whatever the upper one is. -/
theorem range_refused {a : Standard} (h : a.Cuts partitions) (available : List String)
    (span : Span) :
    ((∃ fault, a.range available span = .error fault) ↔
        ¬span.interval.IsNumeric ∧ ¬Interval.PastAll span.interval.lower) ∧
      (∀ fault, a.range available span = .error fault ↔
        ∃ bound, span.interval.FirstNotNumber bound ∧ ¬Interval.PastAll span.interval.lower ∧
          fault = .value (.boundNotInteger a.type bound)) ∧
      (Interval.PastAll span.interval.lower → a.range available span = .ok []) := by
  obtain ⟨type, props, table, rfl, htable⟩ := h.exists_byPartition
  have hrefused (fault : Fault) :
      (byPartition type props table).range available span = .error fault ↔
        ∃ bound, span.interval.FirstNotNumber bound ∧ ¬Interval.PastAll span.interval.lower ∧
          fault = .value (.boundNotInteger type bound) := by
    rw [range_byPartition_eq_error_iff htable]
    simp only [Interval.integers_eq_error_iff, and_assoc]
  refine ⟨?_, hrefused, range_byPartition_of_pastAll htable⟩
  rw [← Interval.exists_firstNotNumber_iff]
  simp only [hrefused]
  constructor
  · rintro ⟨_, bound, hfirst, hpast, _⟩
    exact ⟨⟨bound, hfirst⟩, hpast⟩
  · rintro ⟨⟨bound, hfirst⟩, hpast⟩
    exact ⟨_, bound, hfirst, hpast, rfl⟩

/-- The boundaries 1, 5 and 10. -/
theorem cuts_oneFiveTen : ∃ partitions, (listedRange (listing "1,5,10")).Cuts partitions := by
  have hraw : (listing "1,5,10").get? "partition.ranges" = some "1,5,10" := by
    rw [listing, Dictionary.get?_insert, if_pos rfl]
  have hset : boundarySet "1,5,10" = {1, 5, 10} := by decide
  have hsome : boundarySet "1,5,10" ≠ ∅ := by
    rw [hset]
    decide
  exact ⟨_, .listed ((listedPartitions_okWhen hraw).eq_ok_iff.2 ⟨hsome, rfl⟩)⟩

/-- From a word up to a bound below all integers. -/
def fromWord : Interval := ⟨.included (.text "x"), .excluded (.int Int64.minValue)⟩

/-- From above all integers up to a word. -/
def upToWord : Interval := ⟨.excluded (.int Int64.maxValue), .included (.text "x")⟩

theorem range_refused_fromWord :
    (∃ partitions, (listedRange (listing "1,5,10")).Cuts partitions) ∧
      (listedRange (listing "1,5,10")).range ["t_0", "t_1"] ⟨"t", "id", fromWord⟩ =
        .error (.value (.boundNotInteger "CUSTOM_RANGE" (.text "x"))) := by
  obtain ⟨partitions, hcuts⟩ := cuts_oneFiveTen
  have hnumber : (Value.text "x").number? = none := by decide
  have hpast : ¬Interval.PastAll fromWord.lower := by
    rintro ⟨_, ⟨⟩, _⟩
  obtain ⟨_, hrefused, _⟩ := range_refused hcuts ["t_0", "t_1"] ⟨"t", "id", fromWord⟩
  exact ⟨⟨partitions, hcuts⟩, (hrefused _).2 ⟨_, .inl ⟨.inl rfl, hnumber⟩, hpast, rfl⟩⟩

/-- A word is overlooked as the upper bound where nothing lies above the lower one. -/
theorem not_range_refused_upToWord : ¬∀ (a : Standard) (partitions : List Partition),
    a.Cuts partitions → ∀ (available : List String) (span : Span),
      (∃ fault, a.range available span = .error fault) ↔ ¬span.interval.IsNumeric := by
  intro h
  obtain ⟨partitions, hcuts⟩ := cuts_oneFiveTen
  have hnumber : (Value.text "x").number? = none := by decide
  have hnotNumeric : ¬upToWord.IsNumeric := by
    rintro ⟨_, hupper⟩
    rw [upToWord, Interval.IsNumericBound, hnumber] at hupper
    cases hupper
  obtain ⟨fault, hfault⟩ := (h _ _ hcuts ["t_0", "t_1"] ⟨"t", "id", upToWord⟩).2 hnotNumeric
  have hempty : (listedRange (listing "1,5,10")).range ["t_0", "t_1"] ⟨"t", "id", upToWord⟩ =
      .ok [] := by
    obtain ⟨type, props, table, heq, htable⟩ := hcuts.exists_byPartition
    rw [heq]
    exact range_byPartition_of_pastAll htable ⟨_, rfl, rfl⟩
  cases hempty.symm.trans hfault

end Sharding.Algorithm
