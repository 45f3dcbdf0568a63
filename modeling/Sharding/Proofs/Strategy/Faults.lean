import Sharding.Proofs.Algorithm.Faults
import Sharding.Proofs.Strategy.Resolve
/-!
# How strategies fail

A strategy that places the numbers of one column fails for values that are no numbers, and for
nothing else.
-/

namespace Sharding

open Outcome

/-- All values and bounds that a predicate gives for its column are numbers. -/
def Predicate.IsNumeric : Predicate → Prop
  | list _ _ values => ∀ v ∈ values, v.number?.isSome
  | range _ _ interval => interval.IsNumeric
  | hint _ _ => True

namespace Strategy

/-- The strategy places the numbers of one column or does not narrow. -/
inductive PlacesNumbers : Strategy → Prop where
  | standard (column : String) {algorithm : Algorithm.Standard}
      (placing : algorithm.type ∈ Algorithm.placingTypes) :
      PlacesNumbers (.standard column algorithm)
  | none : PlacesNumbers .none

theorem PlacesNumbers.noHint {strategy : Strategy} (h : strategy.PlacesNumbers) :
    strategy.isHint = false := by
  cases h <;> rfl

variable {available : List String} {predicates : List Predicate} {fault : Fault}

section Standard

variable {column : String} {algorithm : Algorithm.Standard} {p : Predicate}
variable (halgorithm : algorithm.BuiltIn) (hcheck : algorithm.check = .ok ())
variable (htype : algorithm.type ∈ Algorithm.placingTypes)

include halgorithm hcheck htype

theorem kind_of_standardTargets (h : standardTargets column algorithm available p = .error fault) :
    fault.kind = .value := by
  cases p with
  | list table own values =>
    rcases bind_eq_error.1 h with hvalues | ⟨_, _, h⟩
    · obtain ⟨v, _, hv⟩ := exists_of_mapM_error hvalues
      have hkind := halgorithm.kind_of_precise hcheck hv
      rwa [Algorithm.Standard.faultKind, if_pos htype] at hkind
    · cases h
  | range table own interval => exact halgorithm.kind_of_range hcheck htype h
  | hint table values => cases h

theorem exists_standardTargets (hne : available ≠ []) (hp : p.IsNumeric) :
    ∃ names, standardTargets column algorithm available p = .ok names := by
  cases p with
  | list table own values =>
    apply exists_bind_iff.2
    apply exists_mapM_iff.2
    intro v hv
    obtain ⟨n, hn⟩ := Option.isSome_iff_exists.1 (hp v hv)
    have hprecise : ∃ target, algorithm.precise available ⟨table, column, v⟩ = .ok (some target) :=
      halgorithm.exists_precise hcheck htype hne hn
    obtain ⟨target, htarget⟩ := hprecise
    exact ⟨some target, htarget⟩
  | range table own interval => exact halgorithm.exists_range hcheck htype hp
  | hint table values => exact ⟨available, rfl⟩

end Standard

variable {strategy : Strategy}

theorem BuiltIn.kind_of_resolve (hstrategy : strategy.BuiltIn) (hplaces : strategy.PlacesNumbers)
    (h : strategy.resolve available predicates = .error fault) : fault.kind = .value := by
  have htargets := resolve_eq_error h
  cases hstrategy with
  | standard column halgorithm hcheck =>
    cases hplaces with
    | standard _ htype =>
      cases hfind : predicates.find? (·.isAbout column) with
      | none =>
        rw [targets?_standard_of_none _ _ hfind] at htargets
        cases htargets
      | some p =>
        rw [targets?_standard _ _ hfind] at htargets
        exact kind_of_standardTargets halgorithm hcheck htype (map_eq_error.1 htargets)
  | complex columns props => cases hplaces
  | hint props => cases hplaces
  | none => cases htargets

theorem BuiltIn.exists_resolve (hstrategy : strategy.BuiltIn) (hplaces : strategy.PlacesNumbers)
    (hne : available ≠ []) (hnumeric : ∀ p ∈ predicates, p.IsNumeric) :
    ∃ names, strategy.resolve available predicates = .ok names := by
  apply exists_resolve_iff.2
  cases hstrategy with
  | standard column halgorithm hcheck =>
    cases hplaces with
    | standard _ htype =>
      cases hfind : predicates.find? (·.isAbout column) with
      | none => exact ⟨_, targets?_standard_of_none _ _ hfind⟩
      | some p =>
        have hp := hnumeric p (List.mem_of_find?_eq_some hfind)
        rw [targets?_standard _ _ hfind]
        exact exists_map_iff.2 (exists_standardTargets halgorithm hcheck htype hne hp)
  | complex columns props => cases hplaces
  | hint props => cases hplaces
  | none => exact ⟨_, rfl⟩

end Strategy

end Sharding
