import Sharding.Proofs.Strategy.Resolve
import Sharding.Table.Basic
/-!
# Resolved tables

The two levels of a table are narrowed apart, and a node remains when both of its names do.
-/

namespace Sharding

/-- One thing for each level. -/
def Level.pair {α : Type} (database table : α) : Level → α
  | .database => database
  | .table => table

theorem Level.forall_iff {p : Level → Prop} : (∀ level, p level) ↔ p .database ∧ p .table := by
  constructor
  · intro h
    exact ⟨h .database, h .table⟩
  · intro h level
    cases level with
    | database => exact h.1
    | table => exact h.2

namespace Table

open Outcome

variable {table : Table} {defaults : Defaults}

/-- The strategy of a level. A level without one is left as it is. -/
def strategyAt (table : Table) (defaults : Defaults) (level : Level) : Strategy :=
  (table.effectiveStrategy defaults level).getD .none

theorem strategyAt_of_eq_some {level : Level} {strategy : Strategy}
    (h : table.effectiveStrategy defaults level = some strategy) :
    table.strategyAt defaults level = strategy := by
  rw [strategyAt, h]
  rfl

theorem narrow_eq (table : Table) (defaults : Defaults) (level : Level)
    (predicates : List Predicate) :
    table.narrow defaults level predicates =
      (table.strategyAt defaults level).resolve (table.names level) predicates := by
  unfold narrow strategyAt
  cases table.effectiveStrategy defaults level <;> rfl

/-- The nodes both of whose names are left. -/
def keep (table : Table) (left : Level → List String) : List Node :=
  table.nodes.filter fun node =>
    Name.isIn (left .database) node.dataSource && Name.isIn (left .table) node.table

theorem mem_keep {left : Level → List String} {node : Node} :
    node ∈ table.keep left ↔ node ∈ table.nodes ∧ ∀ level, Name.isIn (left level) (node.at level) := by
  rw [keep, List.mem_filter, Bool.and_eq_true, Level.forall_iff]
  rfl

theorem resolve_eq_bind (hnarrowed : table.broadcast = false)
    (predicates : Level → List Predicate) :
    table.resolve defaults predicates = (do
      let dataSources ← table.narrow defaults .database (predicates .database)
      let tables ← table.narrow defaults .table (predicates .table)
      .ok (table.keep (Level.pair dataSources tables))) := by
  unfold resolve keep
  rw [hnarrowed, if_neg Bool.false_ne_true]
  simp only [Name.contains_map_fold, Level.pair]

theorem resolve_of_narrow {predicates : Level → List Predicate} {left : Level → List String}
    (hnarrowed : table.broadcast = false)
    (hleft : ∀ level, table.narrow defaults level (predicates level) = .ok (left level)) :
    table.resolve defaults predicates = .ok (table.keep left) := by
  rw [resolve_eq_bind hnarrowed, hleft .database, hleft .table]
  rfl

theorem resolve_eq_ok {predicates : Level → List Predicate} {nodes : List Node}
    (hnarrowed : table.broadcast = false) (h : table.resolve defaults predicates = .ok nodes) :
    ∃ left : Level → List String,
      (∀ level, table.narrow defaults level (predicates level) = .ok (left level)) ∧
        nodes = table.keep left := by
  rw [resolve_eq_bind hnarrowed] at h
  obtain ⟨dataSources, hdataSources, h⟩ := bind_eq_ok.1 h
  obtain ⟨tables, htables, h⟩ := bind_eq_ok.1 h
  have hleft : ∀ level, table.narrow defaults level (predicates level) =
      .ok (Level.pair dataSources tables level) := Level.forall_iff.2 ⟨hdataSources, htables⟩
  exact ⟨Level.pair dataSources tables, hleft, (Except.ok.inj h).symm⟩

theorem exists_resolve_iff {predicates : Level → List Predicate}
    (hnarrowed : table.broadcast = false) :
    (∃ nodes, table.resolve defaults predicates = .ok nodes) ↔
      ∀ level, ∃ left, table.narrow defaults level (predicates level) = .ok left := by
  constructor
  · rintro ⟨nodes, hnodes⟩ level
    obtain ⟨left, hleft, _⟩ := resolve_eq_ok hnarrowed hnodes
    exact ⟨left level, hleft level⟩
  · intro h
    choose left hleft using h
    exact ⟨table.keep left, resolve_of_narrow hnarrowed hleft⟩

/-- A table fails to resolve where it fails to be narrowed at a level. -/
theorem resolve_eq_error {predicates : Level → List Predicate} {fault : Fault}
    (hnarrowed : table.broadcast = false)
    (h : table.resolve defaults predicates = .error fault) :
    ∃ level, table.narrow defaults level (predicates level) = .error fault := by
  rw [resolve_eq_bind hnarrowed] at h
  rcases bind_eq_error.1 h with hdataSources | ⟨_, _, h⟩
  · exact ⟨.database, hdataSources⟩
  · rcases bind_eq_error.1 h with htables | ⟨_, _, h⟩
    · exact ⟨.table, htables⟩
    · cases h

theorem isIn_names {node : Node} (h : node ∈ table.nodes) (level : Level) :
    Name.isIn (table.names level) (node.at level) :=
  Name.isIn_distinct.2 (Name.isIn_of_mem (List.mem_map_of_mem h))

/-- A table is resolved by what its strategies find, without their canonical forms. -/
theorem resolve_eq_found (hnarrowed : table.broadcast = false)
    (predicates : Level → List Predicate) :
    table.resolve defaults predicates = (do
      let dataSources ← (table.strategyAt defaults .database).targets? (table.names .database)
        (predicates .database)
      let tables ← (table.strategyAt defaults .table).targets? (table.names .table)
        (predicates .table)
      .ok (table.nodes.filter fun node =>
        dataSources.all (Name.isIn · node.dataSource) && tables.all (Name.isIn · node.table))) := by
  rw [resolve_eq_bind hnarrowed, narrow_eq, narrow_eq]
  cases hdataSources : (table.strategyAt defaults .database).targets? (table.names .database)
      (predicates .database) with
  | error fault =>
    rw [Strategy.resolve_of_error hdataSources]
    rfl
  | ok dataSources =>
    obtain ⟨first, hfirst, hpicksFirst⟩ := Strategy.resolve_of_ok hdataSources
    rw [hfirst]
    cases htables : (table.strategyAt defaults .table).targets? (table.names .table)
        (predicates .table) with
    | error fault =>
      rw [Strategy.resolve_of_error htables]
      rfl
    | ok tables =>
      obtain ⟨second, hsecond, hpicksSecond⟩ := Strategy.resolve_of_ok htables
      rw [hsecond]
      refine congrArg Except.ok (List.filter_congr fun node hnode => ?_)
      rw [Bool.eq_iff_iff, Bool.and_eq_true, Bool.and_eq_true, ← Strategy.picks_iff_all,
        ← Strategy.picks_iff_all]
      exact and_congr ((hpicksFirst _).trans (and_iff_right (isIn_names hnode .database)))
        ((hpicksSecond _).trans (and_iff_right (isIn_names hnode .table)))

theorem names_ne_nil (h : table.nodes ≠ []) (level : Level) : table.names level ≠ [] := by
  intro hnames
  apply h
  exact List.map_eq_nil_iff.1 (Name.distinct_eq_nil.1 hnames)

end Table

end Sharding
