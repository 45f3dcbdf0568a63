import Mathlib.Data.List.Perm.Subperm
import Sharding.Binding
import Sharding.Proofs.Name
import Sharding.Proofs.Outcome
/-!
# Built binding groups

All members of a group have the same count of physical tables in every data source.
-/

namespace Sharding.Table

theorem actualTables_congr (table : Table) {a b : String} (h : Name.fold a = Name.fold b) :
    table.actualTables a = table.actualTables b := by
  simp only [actualTables, Node.isInDataSource, Name.same, h]

/-- A table has physical tables in the data sources of its nodes. -/
theorem actualTables_ne_nil_iff {table : Table} {dataSource : String} :
    table.actualTables dataSource ≠ [] ↔ Name.isIn (table.names .database) dataSource := by
  rw [names, Name.isIn_distinct, Name.isIn_iff, actualTables]
  simp only [ne_eq, List.map_eq_nil_iff, List.filter_eq_nil_iff, List.mem_map,
    exists_exists_and_eq_and, Node.isInDataSource, Name.same_iff, not_forall, not_not, exists_prop]
  exact Iff.rfl

end Sharding.Table

namespace Sharding.BindingGroup

open Outcome

/-- Tables that have as many data sources, and the same counts in those of one of them, have the
same counts everywhere. -/
theorem length_actualTables_of_alike {first other : Table} (h : alike first other)
    (dataSource : String) :
    (first.actualTables dataSource).length = (other.actualTables dataSource).length := by
  simp only [alike, Bool.and_eq_true, beq_iff_eq, List.all_eq_true] at h
  obtain ⟨hlength, hcounts⟩ := h
  have hcount : ∀ {name}, Name.isIn (first.names .database) name →
      (first.actualTables name).length = (other.actualTables name).length := by
    intro name hname
    obtain ⟨listed, hlisted, hfold⟩ := Name.isIn_iff.1 hname
    rw [first.actualTables_congr hfold.symm, other.actualTables_congr hfold.symm]
    exact hcounts listed hlisted
  -- the folded data sources of the first are among those of the other and no fewer
  have hsubset : (first.names .database).map Name.fold ⊆ (other.names .database).map Name.fold := by
    intro key hkey
    obtain ⟨name, hname, rfl⟩ := List.mem_map.1 hkey
    have hin := Name.isIn_of_mem hname
    have hne := Table.actualTables_ne_nil_iff.2 hin
    rw [← List.length_pos_iff, hcount hin, List.length_pos_iff] at hne
    obtain ⟨found, hfound, hfold⟩ := Name.isIn_iff.1 (Table.actualTables_ne_nil_iff.1 hne)
    exact List.mem_map.2 ⟨found, hfound, hfold⟩
  have hnodup : ((first.names .database).map Name.fold).Nodup :=
    List.pairwise_map.2 (Name.pairwise_distinct _)
  have hperm := (hnodup.subperm hsubset).perm_of_length_le (by simp [hlength])
  by_cases hin : Name.isIn (first.names .database) dataSource
  · exact hcount hin
  · have hother : ¬Name.isIn (other.names .database) dataSource := by
      intro hother
      obtain ⟨found, hfound, hfold⟩ := Name.isIn_iff.1 hother
      obtain ⟨name, hname, heq⟩ := List.mem_map.1 (hperm.mem_iff.2 (List.mem_map_of_mem hfound))
      exact hin (Name.isIn_iff.2 ⟨name, hname, heq.trans hfold⟩)
    rw [← Table.actualTables_ne_nil_iff, not_not] at hin hother
    rw [hin, hother]

structure WellFormed (group : BindingGroup) : Prop where
  two_le_length : 2 ≤ group.members.length
  names_distinct : group.members.Pairwise fun a b => a.name ≠ b.name
  counts_eq : ∀ a ∈ group.members, ∀ b ∈ group.members, ∀ dataSource,
    (a.actualTables dataSource).length = (b.actualTables dataSource).length

theorem build_eq_ok {members : List Table} {group : BindingGroup} (h : build members = .ok group) :
    group.members = members ∧ 2 ≤ members.length ∧
      ∀ a ∈ members, ∀ b ∈ members, ∀ dataSource,
        (a.actualTables dataSource).length = (b.actualTables dataSource).length := by
  unfold build at h
  split at h
  · next first second others =>
    split at h
    · cases h
    · next hnone =>
      cases h
      have halike : ∀ member ∈ first :: second :: others, ∀ dataSource,
          (first.actualTables dataSource).length = (member.actualTables dataSource).length := by
        intro member hmember dataSource
        rcases List.mem_cons.1 hmember with rfl | hmember
        · rfl
        · have h := List.find?_eq_none.1 hnone member hmember
          exact length_actualTables_of_alike (by simpa using h) dataSource
      refine ⟨rfl, Nat.le_add_left 2 _, fun a ha b hb dataSource => ?_⟩
      exact (halike a ha dataSource).symm.trans (halike b hb dataSource)
  · cases h

end Sharding.BindingGroup
