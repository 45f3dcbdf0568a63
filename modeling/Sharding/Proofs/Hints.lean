import Sharding.Hints
import Sharding.Proofs.Table.Resolve
/-!
# Hints of one table

The values that hints give to a table at a level can be replaced and leave all others as they are.
-/

namespace Sharding.Hints

theorem values_congr (hints : Hints) (level : Level) {a b : String} (h : Name.same a b) :
    hints.values level a = hints.values level b := by
  simp only [values, Name.same_iff.1 h]

/-- The hints with other values for one table at one level. -/
def replace (hints : Hints) (level : Level) (name : String) (kept : List Value) : Hints :=
  let others := hints.given.filter fun hint =>
    !(hint.level == level && hint.table == Name.fold name)
  ⟨others ++ kept.map fun v => ⟨level, Name.fold name, v⟩⟩

theorem values_replace_self (hints : Hints) (level : Level) (name : String) (kept : List Value) :
    (hints.replace level name kept).values level name = kept := by
  simp [values, replace, List.filter_filter, List.filter_map, Function.comp_def]

theorem values_replace_of_ne (hints : Hints) {level other : Level} {name table : String}
    (kept : List Value) (hne : ¬(other = level ∧ Name.same table name)) :
    (hints.replace level name kept).values other table = hints.values other table := by
  have hnew : (kept.map fun v => (⟨level, Name.fold name, v⟩ : Hint)).filter
      (fun hint => hint.level == other && hint.table == Name.fold table) = [] := by
    rw [List.filter_eq_nil_iff]
    rintro hint hhint hown
    obtain ⟨v, _, rfl⟩ := List.mem_map.1 hhint
    simp only [Bool.and_eq_true, beq_iff_eq] at hown
    exact hne ⟨hown.1.symm, Name.same_iff.2 hown.2.symm⟩
  have hold : (hints.given.filter fun hint =>
        !(hint.level == level && hint.table == Name.fold name)).filter
          (fun hint => hint.level == other && hint.table == Name.fold table) =
      hints.given.filter fun hint => hint.level == other && hint.table == Name.fold table := by
    rw [List.filter_filter]
    refine List.filter_congr fun hint _ => ?_
    rw [Bool.eq_iff_iff]
    simp only [Bool.and_eq_true, Bool.not_eq_true', beq_iff_eq, and_iff_left_iff_imp]
    rintro ⟨rfl, htable⟩
    rw [Bool.eq_false_iff]
    intro hsame
    simp only [Bool.and_eq_true, beq_iff_eq] at hsame
    exact hne ⟨hsame.1, Name.same_iff.2 (htable.symm.trans hsame.2)⟩
  rw [values, values, replace, List.filter_append, hnew, hold, List.append_nil]

/-- The values of a table can be any at each level, with those of other tables as they were. -/
theorem exists_values (hints : Hints) (name : String) (kept : Level → List Value) :
    ∃ own : Hints, (∀ level, own.values level name = kept level) ∧
      ∀ level other, ¬Name.same other name → own.values level other = hints.values level other := by
  refine ⟨(hints.replace .database name (kept .database)).replace .table name (kept .table),
    Level.forall_iff.2 ⟨?_, ?_⟩, ?_⟩
  · rw [values_replace_of_ne _ _ (by simp), values_replace_self]
  · rw [values_replace_self]
  · intro level other hother
    have hne (own : Level) : ¬(level = own ∧ Name.same other name) := fun h => hother h.2
    rw [values_replace_of_ne _ _ (hne _), values_replace_of_ne _ _ (hne _)]

end Sharding.Hints
