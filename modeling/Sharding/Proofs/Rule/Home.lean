import Sharding.Proofs.Rule.Coverage
/-!
# Every row has one home

Where both levels of a table are sharded by one column each, the values of a row leave one name at
each level at most, and no two nodes share both names. Algorithms that place numbers leave one name
exactly, so a row of numbers has a home on every full grid of nodes.
-/

namespace Sharding

open Outcome

namespace Strategy

variable {row : Row} {column : String} {algorithm : Algorithm.Standard}
variable {available names : List String} {point : List Predicate}

/-- The values of a row leave at most one name. -/
theorem fold_eq_of_pins (hpins : ∀ p ∈ point, p.Pins row)
    (hpinned : ∃ p ∈ point, p.isAbout column)
    (hnames : (standard column algorithm).resolve available point = .ok names) {a b : String}
    (ha : Name.isIn names a) (hb : Name.isIn names b) : Name.fold a = Name.fold b := by
  obtain ⟨found, hfound, hpicks⟩ := resolve_eq_ok hnames
  obtain ⟨table, own, hpoint⟩ := targets?_of_pins algorithm available hpins hpinned
  obtain ⟨targets, htargets, rfl⟩ := map_eq_ok.1 (hpoint.symm.trans hfound)
  obtain ⟨_, hv, target, htarget, hfold⟩ :=
    (isIn_standardTargets_list htargets).1 (picks_some.1 ((hpicks a).1 ha).2)
  obtain ⟨_, hw, other, hother, hfold'⟩ :=
    (isIn_standardTargets_list htargets).1 (picks_some.1 ((hpicks b).1 hb).2)
  cases List.mem_singleton.1 hv
  cases List.mem_singleton.1 hw
  cases htarget.symm.trans hother
  exact hfold.symm.trans hfold'

/-- A number that is placed leaves one of the available names. -/
theorem exists_left_of_pins (halgorithm : algorithm.BuiltIn) (hcheck : algorithm.check = .ok ())
    (htype : algorithm.type ∈ Algorithm.placingTypes) (hne : available ≠ [])
    (hpins : ∀ p ∈ point, p.Pins row) (hpinned : ∃ p ∈ point, p.isAbout column) {n : Int64}
    (hn : (row.at column).number? = some n) :
    ∃ names, (standard column algorithm).resolve available point = .ok names ∧
      ∃ target ∈ available, Name.isIn names target := by
  obtain ⟨table, own, hpoint⟩ := targets?_of_pins algorithm available hpins hpinned
  have hprecise : ∃ target, algorithm.precise available ⟨table, column, row.at column⟩ =
      .ok (some target) := halgorithm.exists_precise hcheck htype hne hn
  obtain ⟨target, htarget⟩ := hprecise
  have htargets : standardTargets column algorithm available
      (.list table own [row.at column]) = .ok [target] := by
    simp only [standardTargets, List.mapM_cons, List.mapM_nil, htarget]
    rfl
  rw [htargets] at hpoint
  have hleft : (standard column algorithm).resolve available point =
      .ok (restrict available [target]) := by
    simp only [resolve, hpoint]
    rfl
  have hmem := halgorithm.mem_of_precise htarget
  refine ⟨_, hleft, target, hmem, ?_⟩
  apply Name.isIn_canonical.2
  apply Name.isIn_findAll.2
  exact ⟨Name.isIn_of_mem hmem, Name.isIn_singleton.2 rfl⟩

end Strategy

namespace Table

variable {table : Table} {left : Level → List String}

/-- Nodes that are told apart by their names are left apart. -/
theorem length_keep_le_one (hdistinct : table.nodes.Pairwise fun a b => a.key ≠ b.key)
    (hleft : ∀ level a b, Name.isIn (left level) a → Name.isIn (left level) b →
      Name.fold a = Name.fold b) : (table.keep left).length ≤ 1 := by
  have hkept : (table.keep left).Pairwise fun a b => a.key ≠ b.key := hdistinct.filter _
  cases hnodes : table.keep left with
  | nil => exact Nat.zero_le 1
  | cons first rest =>
    cases rest with
    | nil => exact Nat.le_refl 1
    | cons second rest =>
      rw [hnodes] at hkept
      have hfirst : first ∈ table.keep left := hnodes ▸ List.mem_cons_self
      have hsecond : second ∈ table.keep left :=
        hnodes ▸ List.mem_cons_of_mem first List.mem_cons_self
      have hsame (level : Level) : Name.fold (first.at level) = Name.fold (second.at level) :=
        hleft level _ _ ((mem_keep.1 hfirst).2 level) ((mem_keep.1 hsecond).2 level)
      have hkey : first.key = second.key := Prod.ext (hsame .database) (hsame .table)
      exact absurd hkey ((List.pairwise_cons.1 hkept).1 second List.mem_cons_self)

/-- Every data source of the table has every physical table of it. -/
def IsGrid (table : Table) : Prop :=
  ∀ dataSource ∈ table.names .database, ∀ actual ∈ table.names .table,
    ∃ node ∈ table.nodes, Name.same node.dataSource dataSource ∧ Name.same node.table actual

theorem exists_mem_keep (hgrid : table.IsGrid)
    (hleft : ∀ level, ∃ name ∈ table.names level, Name.isIn (left level) name) :
    ∃ node, node ∈ table.keep left := by
  obtain ⟨dataSource, hdataSource, hleftDataSource⟩ := hleft .database
  obtain ⟨actual, hactual, hleftActual⟩ := hleft .table
  obtain ⟨node, hnode, hfirst, hsecond⟩ := hgrid dataSource hdataSource actual hactual
  refine ⟨node, mem_keep.2 ⟨hnode, ?_⟩⟩
  refine Level.forall_iff.2 ⟨?_, ?_⟩
  · exact (Name.isIn_congr _ (Name.same_iff.1 hfirst)).trans hleftDataSource
  · exact (Name.isIn_congr _ (Name.same_iff.1 hsecond)).trans hleftActual

end Table

namespace Rule

variable {rule : Rule} {table : Table} {row : Row} {name : String} {point : List Predicate}
variable {hints : Hints}

/-- At a level with a strategy on one column the point asks that strategy for the value of the row. -/
theorem narrow_of_standard (htable : rule.findTable? name = some table)
    (hpoint : rule.IsPoint row name point) {level : Level} {column : String}
    {algorithm : Algorithm.Standard}
    (hstrategy : table.effectiveStrategy rule.defaults level = some (.standard column algorithm))
    (hints : Hints) :
    table.narrow rule.defaults level (rule.predicatesFor table name point hints level) =
        (Strategy.standard column algorithm).resolve (table.names level)
          (rule.predicatesFor table name point hints level) ∧
      (∀ p ∈ rule.predicatesFor table name point hints level, p.Pins row) ∧
      ∃ p ∈ rule.predicatesFor table name point hints level, p.isAbout column := by
  have hat := Table.strategyAt_of_eq_some hstrategy
  have hnoHint : (table.strategyAt rule.defaults level).isHint = false := hat ▸ rfl
  have hpinned := hpoint.pinned htable hnoHint hints
  rw [hat] at hpinned
  refine ⟨?_, hpoint.pinsFor hnoHint hints, hpinned column (List.mem_singleton_self column)⟩
  rw [Table.narrow_eq, hat]

section Standard

variable {config : Configuration.Rule} {dataSources : List String}
variable (hbuild : build Catalog.builtIn config dataSources = .ok rule)
variable (htable : rule.findTable? name = some table)
variable (hstandard : ∀ level, ∃ column algorithm,
  table.effectiveStrategy rule.defaults level = some (.standard column algorithm))
variable (hpoint : rule.IsPoint row name point)

include hbuild htable hstandard hpoint

theorem length_route_le_one {nodes : List Node}
    (hnodes : rule.route name point hints = .ok nodes) : nodes.length ≤ 1 := by
  have hmem : table ∈ rule.tables := List.mem_of_find?_eq_some htable
  have hwellFormed := (build_wellFormed hbuild).tables_wellFormed table hmem
  rw [route_of_findTable? htable] at hnodes
  obtain ⟨left, hleft, rfl⟩ := Table.resolve_eq_ok hwellFormed.not_broadcast hnodes
  apply Table.length_keep_le_one hwellFormed.nodes_distinct
  intro level a b ha hb
  obtain ⟨column, algorithm, hstrategy⟩ := hstandard level
  obtain ⟨hnarrow, hpins, hpinned⟩ := narrow_of_standard htable hpoint hstrategy hints
  exact Strategy.fold_eq_of_pins hpins hpinned (hnarrow.symm.trans (hleft level)) ha hb

theorem exists_mem_route (hints : Hints)
    (hplacing : ∀ level column algorithm,
      table.effectiveStrategy rule.defaults level = some (.standard column algorithm) →
        algorithm.type ∈ Algorithm.placingTypes ∧ (row.at column).number?.isSome)
    (hgrid : table.IsGrid) :
    ∃ nodes node, rule.route name point hints = .ok nodes ∧ node ∈ nodes := by
  have hmem : table ∈ rule.tables := List.mem_of_find?_eq_some htable
  have hwellFormed := (build_wellFormed hbuild).tables_wellFormed table hmem
  have hexists (level : Level) : ∃ names, table.narrow rule.defaults level
      (rule.predicatesFor table name point hints level) = .ok names ∧
        ∃ target ∈ table.names level, Name.isIn names target := by
    obtain ⟨column, algorithm, hstrategy⟩ := hstandard level
    obtain ⟨htype, hnumber⟩ := hplacing level column algorithm hstrategy
    obtain ⟨n, hn⟩ := Option.isSome_iff_exists.1 hnumber
    obtain ⟨hnarrow, hpins, hpinned⟩ := narrow_of_standard htable hpoint hstrategy hints
    have hbuiltIn := builtIn_strategyAt hbuild hmem level
    have hne := Table.names_ne_nil hwellFormed.nodes_ne_nil level
    rw [hnarrow]
    rw [Table.strategyAt_of_eq_some hstrategy] at hbuiltIn
    cases hbuiltIn with
    | standard _ halgorithm hcheck =>
      exact Strategy.exists_left_of_pins halgorithm hcheck htype hne hpins hpinned hn
  choose left hleft hnames using hexists
  have hroute : rule.route name point hints = .ok (table.keep left) := by
    rw [route_of_findTable? htable]
    exact Table.resolve_of_narrow hwellFormed.not_broadcast hleft
  obtain ⟨node, hnode⟩ := Table.exists_mem_keep hgrid hnames
  exact ⟨table.keep left, node, hroute, hnode⟩

end Standard

/-- The values of a row in the sharding columns lead to one node at most. Where the algorithms
place numbers and the nodes are a full grid, the numbers of a row lead to one node exactly. -/
theorem route_home {config : Configuration.Rule} {dataSources : List String}
    (hbuild : build Catalog.builtIn config dataSources = .ok rule)
    (htable : rule.findTable? name = some table)
    (hstandard : ∀ level, ∃ column algorithm,
      table.effectiveStrategy rule.defaults level = some (.standard column algorithm))
    (hpoint : rule.IsPoint row name point) :
    (∀ nodes, rule.route name point hints = .ok nodes → nodes.length ≤ 1) ∧
      ((∀ level column algorithm,
          table.effectiveStrategy rule.defaults level = some (.standard column algorithm) →
            algorithm.type ∈ Algorithm.placingTypes ∧ (row.at column).number?.isSome) →
        table.IsGrid → ∃ node, rule.route name point hints = .ok [node]) := by
  have hatMostOne (nodes : List Node) (hnodes : rule.route name point hints = .ok nodes) :
      nodes.length ≤ 1 := length_route_le_one hbuild htable hstandard hpoint hnodes
  refine ⟨hatMostOne, ?_⟩
  intro hplacing hgrid
  obtain ⟨nodes, node, hroute, hnode⟩ :=
    exists_mem_route hbuild htable hstandard hpoint hints hplacing hgrid
  have hone : nodes.length = 1 := by
    have hlength := hatMostOne nodes hroute
    have hpos := List.length_pos_of_mem hnode
    omega
  obtain ⟨only, rfl⟩ := List.length_eq_one_iff.1 hone
  exact ⟨only, hroute⟩

theorem route_home_shop : ∃ node, shop.route "orders" shopPoint .empty = .ok [node] := by
  have hstandard (level : Level) : ∃ column algorithm,
      orders.effectiveStrategy shop.defaults level = some (.standard column algorithm) := by
    cases level with
    | database => exact ⟨"user", Algorithm.modulo halves, rfl⟩
    | table => exact ⟨"id", Algorithm.modulo halves, rfl⟩
  apply (route_home build_shop findTable?_shop hstandard isPoint_shop).2
  · intro level column algorithm hstrategy
    cases level with
    | database =>
      cases hstrategy
      exact ⟨by decide, by decide +kernel⟩
    | table =>
      cases hstrategy
      exact ⟨by decide, by decide +kernel⟩
  · unfold Table.IsGrid
    decide +kernel

end Rule

end Sharding
