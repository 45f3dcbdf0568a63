import Sharding.Proofs.Rule.Build
import Sharding.Proofs.Table.Resolve
import Sharding.Rule.Routing
/-!
# Routes of configured tables

A configured table is resolved under the predicates that concern each of its levels: those that are
addressed to it and about a column of the strategy there.
-/

namespace Sharding.Rule

variable {rule : Rule} {table : Table} {name : String} {hints : Hints} {level : Level}

theorem route_of_findTable? (htable : rule.findTable? name = some table)
    (predicates : List Predicate) (hints : Hints) :
    rule.route name predicates hints =
      table.resolve rule.defaults (rule.predicatesFor table name predicates hints) := by
  have hfound : rule.table name = .ok table := by
    simp only [Rule.table, htable]
  rw [route, hfound]
  rfl

/-- A route is what the strategies of the table find, without their canonical forms. -/
theorem route_eq_found (htable : rule.findTable? name = some table)
    (hnarrowed : table.broadcast = false) (predicates : List Predicate) (hints : Hints) :
    rule.route name predicates hints = (do
      let dataSources ← (table.strategyAt rule.defaults .database).targets?
        (table.names .database) (rule.predicatesFor table name predicates hints .database)
      let tables ← (table.strategyAt rule.defaults .table).targets?
        (table.names .table) (rule.predicatesFor table name predicates hints .table)
      .ok (table.nodes.filter fun node =>
        dataSources.all (Name.isIn · node.dataSource) && tables.all (Name.isIn · node.table))) := by
  rw [route_of_findTable? htable, Table.resolve_eq_found hnarrowed]

/-- A table that is not configured is routed to all of its nodes or not at all. -/
theorem route_of_findTable?_eq_none (htable : rule.findTable? name = none)
    (predicates others : List Predicate) (hints : Hints) :
    rule.route name predicates hints = rule.route name others hints := by
  simp only [route, Rule.table, htable]
  split
  · rfl
  · rfl

theorem mem_tables_of_table (htable : rule.table name = .ok table)
    (hnarrowed : table.broadcast = false) : table ∈ rule.tables := by
  rw [Rule.table] at htable
  split at htable
  · next found hfound =>
    cases htable
    exact List.mem_of_find?_eq_some hfound
  · split at htable
    · cases htable
      cases hnarrowed
    · cases htable

theorem isShardingColumn_iff (htable : rule.findTable? name = some table) {column : String} :
    rule.isShardingColumn column name ↔
      ∃ level, (table.strategyAt rule.defaults level).isShardingColumn column := by
  have hlevel (level : Level) :
      (table.effectiveStrategy rule.defaults level).any (·.isShardingColumn column) =
        (table.strategyAt rule.defaults level).isShardingColumn column := by
    unfold Table.strategyAt
    cases table.effectiveStrategy rule.defaults level <;> rfl
  simp only [isShardingColumn, htable, hlevel, List.any_eq_true]
  constructor
  · rintro ⟨level, _, hcolumn⟩
    exact ⟨level, hcolumn⟩
  · rintro ⟨level, hcolumn⟩
    refine ⟨level, ?_, hcolumn⟩
    cases level <;> decide

theorem predicatesFor_of_hint (hhint : (table.strategyAt rule.defaults level).isHint)
    (predicates : List Predicate) :
    rule.predicatesFor table name predicates hints level = hints.predicates level name := by
  unfold Table.strategyAt at hhint
  unfold predicatesFor
  cases hstrategy : table.effectiveStrategy rule.defaults level with
  | none =>
    rw [hstrategy] at hhint
    cases hhint
  | some strategy =>
    rw [hstrategy] at hhint
    exact if_pos hhint

theorem predicatesFor_of_noHint (hnoHint : (table.strategyAt rule.defaults level).isHint = false)
    (name : String) (predicates : List Predicate) (hints : Hints) :
    rule.predicatesFor table name predicates hints level = predicates.filter fun p =>
      Name.same p.table name &&
        (table.strategyAt rule.defaults level).isShardingColumn p.column := by
  unfold Table.strategyAt at hnoHint ⊢
  unfold predicatesFor
  cases hstrategy : table.effectiveStrategy rule.defaults level with
  | none =>
    symm
    simp [Strategy.isShardingColumn, Strategy.columns]
  | some strategy =>
    rw [hstrategy] at hnoHint
    exact if_neg (Bool.eq_false_iff.1 hnoHint)

theorem mem_predicatesFor (hnoHint : (table.strategyAt rule.defaults level).isHint = false)
    {predicates : List Predicate} {p : Predicate} :
    p ∈ rule.predicatesFor table name predicates hints level ↔
      p ∈ predicates ∧ Name.same p.table name ∧
        (table.strategyAt rule.defaults level).isShardingColumn p.column := by
  rw [predicatesFor_of_noHint hnoHint, List.mem_filter, Bool.and_eq_true]

theorem builtIn_strategyAt {config : Configuration.Rule} {dataSources : List String}
    (hbuild : build Catalog.builtIn config dataSources = .ok rule) (htable : table ∈ rule.tables)
    (level : Level) : (table.strategyAt rule.defaults level).BuiltIn := by
  cases hstrategy : table.effectiveStrategy rule.defaults level with
  | none =>
    rw [Table.strategyAt, hstrategy]
    exact .none
  | some strategy =>
    obtain ⟨_, hstrategyBuild⟩ := effectiveStrategy_of_build hbuild htable hstrategy
    rw [Table.strategyAt_of_eq_some hstrategy]
    exact Strategy.build_builtIn hstrategyBuild

end Sharding.Rule
