import Sharding.Proofs.Rule.Routing
import Sharding.Proofs.Strategy.Relevance
/-!
# Routes are resolutions

Routing divides a statement between the levels of a table, and each strategy then passes over what
it does not go by. The strategies pass over all that the division leaves out, so a route is the
resolution of everything that is stated of the table, beside the hints of each level.
-/

namespace Sharding

/-- What is stated of a table by lists and ranges, on whatever columns. -/
def statedOf (name : String) (predicates : List Predicate) : List Predicate :=
  predicates.filter fun p => !p.isHint && Name.same p.table name

theorem mem_statedOf {name : String} {predicates : List Predicate} {p : Predicate} :
    p ∈ statedOf name predicates ↔
      p ∈ predicates ∧ p.isHint = false ∧ Name.same p.table name := by
  simp [statedOf]

namespace Hints

/-- The hints for one table. -/
def on (hints : Hints) (name : String) : Hints :=
  ⟨hints.given.filter (·.table == Name.fold name)⟩

theorem values_on (hints : Hints) (level : Level) (name : String) :
    (hints.on name).values level name = hints.values level name := by
  simp only [values, on, List.filter_filter]
  congr 2
  funext hint
  rw [Bool.and_assoc, Bool.and_self]

theorem predicates_on (hints : Hints) (level : Level) (name : String) :
    (hints.on name).predicates level name = hints.predicates level name := by
  rw [predicates, values_on, predicates]

theorem isHint_of_mem_predicates {hints : Hints} {level : Level} {name : String} {p : Predicate}
    (h : p ∈ hints.predicates level name) : p.isHint := by
  unfold predicates at h
  split at h
  · cases h
  · cases List.mem_singleton.1 h
    rfl

/-- Hints are about no column. -/
theorem isAbout_of_mem_predicates {hints : Hints} {level : Level} {name : String} {p : Predicate}
    (h : p ∈ hints.predicates level name) (column : String) : p.isAbout column = false := by
  rw [Predicate.isAbout, isHint_of_mem_predicates h]
  rfl

end Hints

/-- A table that is narrowed alike at both levels keeps the same nodes. -/
theorem Table.resolve_congr {table : Table} {defaults : Defaults}
    {predicates others : Level → List Predicate}
    (h : ∀ level, table.narrow defaults level (predicates level) =
      table.narrow defaults level (others level)) :
    table.resolve defaults predicates = table.resolve defaults others := by
  simp only [resolve, h]

namespace Rule

variable {rule : Rule} {table : Table} {name : String} {level : Level}

theorem resolve_congr {predicates others : Level → List Predicate}
    (h : ∀ table, rule.findTable? name = some table → ∀ level,
      table.narrow rule.defaults level (predicates level) =
        table.narrow rule.defaults level (others level)) :
    rule.resolve name predicates = rule.resolve name others := by
  unfold resolve Rule.table
  cases htable : rule.findTable? name with
  | some table => exact Table.resolve_congr (h table htable)
  | none =>
    -- a table that is not configured keeps all of its nodes or is not known
    cases rule.isBroadcast name <;> rfl

/-- Of what is divided to its level a strategy heeds what it heeds of all that is stated of the table
beside the hints of the level. -/
theorem filter_heeds_predicatesFor (rule : Rule) (table : Table) (name : String)
    (predicates : List Predicate) (hints : Hints) (level : Level) :
    (rule.predicatesFor table name predicates hints level).filter
        (table.strategyAt rule.defaults level).heeds =
      (statedOf name predicates ++ hints.predicates level name).filter
        (table.strategyAt rule.defaults level).heeds := by
  rw [List.filter_append]
  cases hhint : (table.strategyAt rule.defaults level).isHint with
  | true =>
    have hstated : (statedOf name predicates).filter
        (table.strategyAt rule.defaults level).heeds = [] := by
      rw [List.filter_eq_nil_iff]
      intro p hp
      rw [Strategy.heeds_of_isHint hhint, (mem_statedOf.1 hp).2.1]
      exact Bool.false_ne_true
    rw [predicatesFor_of_hint hhint, hstated, List.nil_append]
  | false =>
    have hhints : (hints.predicates level name).filter
        (table.strategyAt rule.defaults level).heeds = [] := by
      rw [List.filter_eq_nil_iff]
      intro p hp
      rw [Strategy.heeds_of_noHint hhint, Hints.isHint_of_mem_predicates hp]
      exact Bool.false_ne_true
    rw [predicatesFor_of_noHint hhint, hhints, List.append_nil, statedOf, List.filter_filter,
      List.filter_filter]
    congr 1
    funext p
    rw [Strategy.heeds_of_noHint hhint, Bool.eq_iff_iff]
    simp only [Bool.and_eq_true]
    tauto

theorem route_eq_resolve (rule : Rule) (name : String) (predicates : List Predicate)
    (hints : Hints) :
    rule.route name predicates hints =
      rule.resolve name fun level => statedOf name predicates ++ hints.predicates level name := by
  have hlevels (table : Table) (level : Level) : table.narrow rule.defaults level
        (rule.predicatesFor table name predicates hints level) =
      table.narrow rule.defaults level
        (statedOf name predicates ++ hints.predicates level name) := by
    rw [Table.narrow_eq, Table.narrow_eq]
    exact Strategy.resolve_congr (filter_heeds_predicatesFor ..) _
  unfold route resolve
  congr 1
  funext table
  exact Table.resolve_congr (hlevels table)

/-- What is stated of a table by lists and ranges on its sharding columns. -/
def relevant (rule : Rule) (name : String) (predicates : List Predicate) : List Predicate :=
  (statedOf name predicates).filter fun p => rule.isShardingColumn p.column name

theorem statedOf_relevant (rule : Rule) (name : String) (predicates : List Predicate) :
    statedOf name (rule.relevant name predicates) = rule.relevant name predicates := by
  rw [statedOf, List.filter_eq_self]
  intro p hp
  obtain ⟨_, hnoHint, hsame⟩ := mem_statedOf.1 (List.mem_filter.1 hp).1
  simp [hnoHint, hsame]

/-- A strategy of a table heeds no predicate that is about other columns. -/
theorem filter_heeds_relevant (htable : rule.findTable? name = some table)
    (predicates : List Predicate) (hints : Hints) (level : Level) :
    (rule.relevant name predicates ++ hints.predicates level name).filter
        (table.strategyAt rule.defaults level).heeds =
      (statedOf name predicates ++ hints.predicates level name).filter
        (table.strategyAt rule.defaults level).heeds := by
  rw [List.filter_append, List.filter_append, relevant, List.filter_filter]
  congr 1
  apply List.filter_congr
  intro p hp
  have hnoHint := (mem_statedOf.1 hp).2.1
  rw [Bool.eq_iff_iff, Bool.and_eq_true, and_iff_left_iff_imp]
  intro hheeds
  apply (isShardingColumn_iff htable).2
  cases hhint : (table.strategyAt rule.defaults level).isHint with
  | true =>
    rw [Strategy.heeds_of_isHint hhint, hnoHint] at hheeds
    cases hheeds
  | false =>
    rw [Strategy.heeds_of_noHint hhint, Bool.and_eq_true] at hheeds
    exact ⟨level, hheeds.2⟩

theorem route_relevant (rule : Rule) (name : String) (predicates : List Predicate)
    (hints : Hints) :
    rule.route name (rule.relevant name predicates) (hints.on name) =
      rule.route name predicates hints := by
  rw [route_eq_resolve, route_eq_resolve]
  apply resolve_congr
  intro table htable level
  rw [statedOf_relevant, Hints.predicates_on, Table.narrow_eq, Table.narrow_eq]
  exact Strategy.resolve_congr (filter_heeds_relevant htable predicates hints level) _

/-- A route is what is left under everything that is stated of the table, beside its hints of each
level. Nothing else counts: neither predicates on other tables or on columns that shard nothing,
nor hints among the predicates, nor hints for other tables. -/
theorem route_heeds_own (rule : Rule) (name : String) (predicates : List Predicate)
    (hints : Hints) :
    rule.route name predicates hints = rule.resolve name (fun level =>
        statedOf name predicates ++ hints.predicates level name) ∧
      rule.route name predicates hints =
        rule.route name (rule.relevant name predicates) (hints.on name) :=
  ⟨route_eq_resolve rule name predicates hints, (route_relevant rule name predicates hints).symm⟩

end Rule

end Sharding
