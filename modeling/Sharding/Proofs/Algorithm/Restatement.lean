import Sharding.Proofs.Algorithm.Faults
/-!
# Targets of restated values

Values in another order have the same targets in another order. Only the order in which values fail
can change, and with it the fault, but not its kind.
-/

namespace Sharding.Algorithm

open Outcome

/-- The lists hold the same names, in whatever spelling and order. -/
def SameNames (names others : List String) : Prop :=
  ∀ name, Name.isIn names name ↔ Name.isIn others name

theorem sameNames_of_sameMembers {names others : List String} (h : SameMembers names others) :
    SameNames names others := by
  intro name
  simp only [Name.isIn_iff, h _]

theorem namedTargets_restated (available : List String) (expression : String)
    {bindings others : List Inline.Bindings} (h : SameMembers bindings others) :
    Agree SameNames (namedTargets available expression bindings)
      (namedTargets available expression others) := by
  have htargets : Agree SameMembers (bindings.mapM (namedTarget available expression))
      (others.mapM (namedTarget available expression)) :=
    Agree.mapM_of_sameMembers h fun _ _ => kind_of_namedTarget
  apply htargets.bind
  intro targets same hsame name
  rw [Name.isIn_distinct, Name.isIn_distinct]
  exact sameNames_of_sameMembers (hsame.filterMap id) name

/-! ## Several columns -/

variable {values others : Dictionary (List Value)}

theorem mem_combinations_of_alike (h : Dictionary.Alike SameMembers values others)
    {each : Inline.Bindings} (heach : each ∈ combinations values.entries) :
    each ∈ combinations others.entries := by
  obtain ⟨value, rfl, hvalue⟩ := exists_of_mem_combinations values.keys_nodup heach
  have hkeys : values.entries.map (·.1) = others.entries.map (·.1) := h.keys_eq
  rw [hkeys]
  apply bindColumns_mem_combinations
  rintro ⟨k, same⟩ hentry
  have hother := Dictionary.get?_eq_some_iff.2 hentry
  obtain ⟨own, hown, hmembers⟩ := exists_of_rel_some_right (hother ▸ h k)
  exact (hmembers _).1 (hvalue (k, own) (Dictionary.get?_eq_some_iff.1 hown))

theorem sameMembers_combinations (h : Dictionary.Alike SameMembers values others) :
    SameMembers (combinations values.entries) (combinations others.entries) := by
  have hback : Dictionary.Alike SameMembers others values := by
    intro k
    have hk := h k
    generalize values.get? k = value at hk ⊢
    generalize others.get? k = other at hk ⊢
    cases hk with
    | none => exact .none
    | some hmembers => exact .some hmembers.symm
  intro each
  exact ⟨mem_combinations_of_alike h, mem_combinations_of_alike hback⟩

theorem complexInline_restated (props : Properties) (available : List String)
    {columns same : Columns} (hvalues : Dictionary.Alike SameMembers columns.values same.values)
    (hranges : columns.ranges.isEmpty = same.ranges.isEmpty) :
    Agree SameNames ((complexInline props).targets available columns)
      ((complexInline props).targets available same) := by
  simp only [complexInline, hranges, hvalues.size_eq]
  split
  · exact Agree.refl (fun _ _ => Iff.rfl) _
  · split
    · exact rfl
    · apply Agree.bind_same
      intro expression
      exact namedTargets_restated available expression (sameMembers_combinations hvalues)

theorem hintInline_restated (props : Properties) (available : List String) {given same : Given}
    (h : SameMembers given.values same.values) :
    Agree SameNames ((hintInline props).targets available given)
      ((hintInline props).targets available same) :=
  namedTargets_restated available _ (h.map fun v => [("value", v.datum)])

end Sharding.Algorithm
