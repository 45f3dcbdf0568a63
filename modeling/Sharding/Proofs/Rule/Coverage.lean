import Sharding.Proofs.Rule.Routing
import Sharding.Proofs.Strategy.Coverage
/-!
# No row is missed

A row is at home where its own values are routed. A query that holds of the row reaches it there,
whatever its predicates are and whatever they leave open.
-/

namespace Sharding.Rule

open Outcome

variable {rule : Rule} {table : Table} {name : String} {hints : Hints}
variable {row : Row} {point query : List Predicate}

/-- Predicates that give the values of a row in all columns by which a table is sharded. -/
structure IsPoint (rule : Rule) (row : Row) (name : String) (point : List Predicate) : Prop where
  pins : ∀ p ∈ point, p.Pins row
  addressed : ∀ p ∈ point, Name.same p.table name
  complete : ∀ column, rule.isShardingColumn column name → ∃ p ∈ point, p.isAbout column

theorem IsPoint.pinsFor (hpoint : rule.IsPoint row name point) {level : Level}
    (hnoHint : (table.strategyAt rule.defaults level).isHint = false) (hints : Hints) :
    ∀ p ∈ rule.predicatesFor table name point hints level, p.Pins row := by
  intro p hp
  exact hpoint.pins p ((mem_predicatesFor hnoHint).1 hp).1

/-- The predicates of a point that concern a level pin every column of its strategy. -/
theorem IsPoint.pinned (hpoint : rule.IsPoint row name point)
    (htable : rule.findTable? name = some table) {level : Level}
    (hnoHint : (table.strategyAt rule.defaults level).isHint = false) (hints : Hints) :
    ∀ column ∈ (table.strategyAt rule.defaults level).columns,
      ∃ p ∈ rule.predicatesFor table name point hints level, p.isAbout column := by
  intro column hcolumn
  have hsharding : (table.strategyAt rule.defaults level).isShardingColumn column :=
    Name.isIn_of_mem hcolumn
  obtain ⟨p, hp, habout⟩ :=
    hpoint.complete column ((isShardingColumn_iff htable).2 ⟨level, hsharding⟩)
  have hsame := Name.same_iff.1 (Predicate.isAbout_iff.1 habout).2
  have hown : (table.strategyAt rule.defaults level).isShardingColumn p.column := by
    rw [Strategy.isShardingColumn, Name.isIn_congr _ hsame]
    exact hsharding
  exact ⟨p, (mem_predicatesFor hnoHint).2 ⟨hp, hpoint.addressed p hp, hown⟩, habout⟩

/-- Of each level a query leaves what the point leaves. -/
theorem narrow_covers {config : Configuration.Rule} {dataSources : List String}
    (hbuild : build Catalog.builtIn config dataSources = .ok rule)
    (htable : rule.findTable? name = some table) (hpoint : rule.IsPoint row name point)
    (hquery : ∀ p ∈ query, Name.same p.table name → rule.isShardingColumn p.column name →
      p.Holds row) {level : Level} {homes places : List String}
    (hhome : table.narrow rule.defaults level
      (rule.predicatesFor table name point hints level) = .ok homes)
    (hreached : table.narrow rule.defaults level
      (rule.predicatesFor table name query hints level) = .ok places)
    {sought : String} (hsought : Name.isIn homes sought) : Name.isIn places sought := by
  cases hhint : (table.strategyAt rule.defaults level).isHint with
  | true =>
    rw [predicatesFor_of_hint hhint] at hhome hreached
    cases hhome.symm.trans hreached
    exact hsought
  | false =>
    have hmem : table ∈ rule.tables := List.mem_of_find?_eq_some htable
    have hholds : ∀ p ∈ rule.predicatesFor table name query hints level, p.Holds row := by
      intro p hp
      obtain ⟨hp, haddressed, hcolumn⟩ := (mem_predicatesFor hhint).1 hp
      apply hquery p hp haddressed
      exact (isShardingColumn_iff htable).2 ⟨level, hcolumn⟩
    rw [Table.narrow_eq] at hhome hreached
    exact (builtIn_strategyAt hbuild hmem level).resolve_covers hhint
      (hpoint.pinsFor hhint hints) (hpoint.pinned htable hhint hints) hholds hhome hreached hsought

/-- A query that holds of a row reaches every node where the row is at home. -/
theorem route_covers {config : Configuration.Rule} {dataSources : List String}
    (hbuild : build Catalog.builtIn config dataSources = .ok rule)
    (hpoint : rule.IsPoint row name point)
    (hquery : ∀ p ∈ query, Name.same p.table name → rule.isShardingColumn p.column name →
      p.Holds row) {homes places : List Node}
    (hhome : rule.route name point hints = .ok homes)
    (hreached : rule.route name query hints = .ok places) : homes ⊆ places := by
  cases htable : rule.findTable? name with
  | none =>
    rw [route_of_findTable?_eq_none htable point query] at hhome
    cases hhome.symm.trans hreached
    exact List.Subset.refl _
  | some table =>
    rw [route_of_findTable? htable] at hhome hreached
    have hmem : table ∈ rule.tables := List.mem_of_find?_eq_some htable
    have hnarrowed := ((build_wellFormed hbuild).tables_wellFormed table hmem).not_broadcast
    obtain ⟨leftHome, hleftHome, hhomes⟩ := Table.resolve_eq_ok hnarrowed hhome
    obtain ⟨left, hleft, hplaces⟩ := Table.resolve_eq_ok hnarrowed hreached
    subst hhomes hplaces
    intro node hnode
    obtain ⟨hnode, hlevels⟩ := Table.mem_keep.1 hnode
    apply Table.mem_keep.2
    refine ⟨hnode, ?_⟩
    intro level
    exact narrow_covers hbuild htable hpoint hquery (hleftHome level) (hleft level) (hlevels level)

/-! ## A row of the shop -/

def shopRow : Row where
  values column := if column = "user" then .int 3 else .int 4

def shopPoint : List Predicate :=
  [.list "orders" "user" [.int 3], .list "orders" "id" [.int 4]]

theorem at_shopRow : shopRow.at "user" = .int 3 ∧ shopRow.at "id" = .int 4 := by
  have huser : Name.fold "user" = "user" := Name.fold_eq_iff.2 (by decide)
  have hid : Name.fold "id" = "id" := Name.fold_eq_iff.2 (by decide)
  simp [Row.at, huser, hid, shopRow]

theorem isPoint_shop : shop.IsPoint shopRow "orders" shopPoint := by
  obtain ⟨huser, hid⟩ := at_shopRow
  constructor
  · intro p hp
    simp only [shopPoint, List.mem_cons, List.not_mem_nil, or_false] at hp
    rcases hp with rfl | rfl
    · exact ⟨"orders", "user", by rw [huser]⟩
    · exact ⟨"orders", "id", by rw [hid]⟩
  · simp [shopPoint, Predicate.table, Name.same_iff]
  · intro column hcolumn
    obtain ⟨level, hsharding⟩ := (isShardingColumn_iff findTable?_shop).1 hcolumn
    cases level with
    | database =>
      refine ⟨.list "orders" "user" [.int 3], by simp [shopPoint], ?_⟩
      exact Predicate.isAbout_iff.2 ⟨rfl, Name.same_iff.2 (Name.isIn_singleton.1 hsharding)⟩
    | table =>
      refine ⟨.list "orders" "id" [.int 4], by simp [shopPoint], ?_⟩
      exact Predicate.isAbout_iff.2 ⟨rfl, Name.same_iff.2 (Name.isIn_singleton.1 hsharding)⟩

def shopQuery : List Predicate :=
  [.range "orders" "user" (.closed (.int 1) (.int 5)), .list "orders" "id" [.int 4, .int 6]]

theorem route_covers_shop :
    build Catalog.builtIn shopConfiguration ["a", "b"] = .ok shop ∧
      shop.IsPoint shopRow "orders" shopPoint ∧
      (∀ p ∈ shopQuery, p.Holds shopRow) ∧
      shop.route "orders" shopPoint .empty = .ok [⟨"b", "o0"⟩] ∧
      shop.route "orders" shopQuery .empty = .ok [⟨"a", "o0"⟩, ⟨"b", "o0"⟩] ∧
      [(⟨"b", "o0"⟩ : Node)] ⊆ [⟨"a", "o0"⟩, ⟨"b", "o0"⟩] := by
  have hholds : ∀ p ∈ shopQuery, p.Holds shopRow := by
    obtain ⟨huser, hid⟩ := at_shopRow
    intro p hp
    simp only [shopQuery, List.mem_cons, List.not_mem_nil, or_false] at hp
    rcases hp with rfl | rfl
    · intro n hn
      rw [huser] at hn
      cases hn
      exact ⟨fun m hm => by cases hm; decide, fun m hm => by cases hm; decide⟩
    · rw [Predicate.Holds, hid]
      exact List.mem_cons_self
  have hhome : shop.route "orders" shopPoint .empty = .ok [⟨"b", "o0"⟩] :=
    eq_ok_of_toOption (by decide +kernel)
  have hreached : shop.route "orders" shopQuery .empty = .ok [⟨"a", "o0"⟩, ⟨"b", "o0"⟩] := by
    rw [route_eq_found findTable?_shop rfl]
    exact eq_ok_of_toOption (by decide +kernel)
  refine ⟨build_shop, isPoint_shop, hholds, hhome, hreached, ?_⟩
  exact route_covers build_shop isPoint_shop (fun p hp _ _ => hholds p hp) hhome hreached

end Sharding.Rule
