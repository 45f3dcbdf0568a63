import Sharding.Proofs.Rule.Consistency
import Sharding.Proofs.Table.Grouping
/-!
# Grouped nodes of the tables of a rule

Every table of a rule that was built, configured or broadcast, has all of its nodes in the groups of
their data sources.
-/

namespace Sharding.Rule

open Outcome

variable {catalog : Catalog} {config : Configuration.Rule} {names : List String} {rule : Rule}

/-- The tables of a rule that was built have their nodes grouped by data source, with none lost,
repeated or out of order. -/
theorem nodes_grouped (h : build catalog config names = .ok rule) {table : Table}
    (htable : table ∈ rule.tables ∨ ∃ name, rule.table name = .ok table) : table.Grouped := by
  have hrule := build_wellFormed h
  rcases htable with htable | ⟨name, htable⟩
  · exact Table.grouped (hrule.tables_wellFormed table htable).nodes_distinct
  · exact Table.grouped (hrule.nodes_of_table htable).2

/-! ## Data sources that take turns -/

def turnsConfiguration : Configuration.Rule where
  tables := [.ofName "orders" (some "a.o0,B.o1,A.o2")]
  bindingGroups := []
  broadcastTables := []
  databaseStrategy := none
  tableStrategy := none
  keyGenerator := some ⟨"id", .ofType "INCREMENT"⟩

def turnsTable : Table where
  name := "orders"
  nodes := [⟨"a", "o0"⟩, ⟨"B", "o1"⟩, ⟨"A", "o2"⟩]
  databaseStrategy := none
  tableStrategy := none
  keyColumn := some "id"
  keyGenerator := none
  broadcast := false

def turns : Rule where
  dataSources := ["a", "b"]
  tables := [turnsTable]
  bindingGroups := []
  broadcastTables := []
  defaults := ⟨none, none, some "id", some (Key.increment .empty)⟩

theorem fold_turns : ["orders", "a", "A", "b", "B", "o0", "o1", "o2", "O2"].map Name.fold =
    ["orders", "a", "a", "b", "b", "o0", "o1", "o2", "o2"] := by
  simp only [List.map_cons, List.map_nil, Name.fold_eq_iff, List.cons.injEq]
  decide

theorem listedNodes_turns :
    Table.listedNodes "orders" turns.dataSources "a.o0,B.o1,A.o2" = .ok turnsTable.nodes := by
  have hfold := fold_turns
  simp only [List.map_cons, List.map_nil, List.cons.injEq, and_true] at hfold
  have hliterals : Inline.expandAll "a.o0,B.o1,A.o2" = .ok ["a.o0", "B.o1", "A.o2"] :=
    eq_ok_of_toOption (by decide +kernel)
  have hread : Table.readNodes "orders" turns.dataSources [] ["a.o0", "B.o1", "A.o2"] =
      .ok turnsTable.nodes := by
    refine Table.readNodes_cons_eq_ok.2
      ⟨⟨"a", "o0"⟩, _, eq_ok_of_toOption (by decide), ?_, ?_, ?_, rfl⟩
    · simp [Name.isIn, turns, hfold]
    · simp
    refine Table.readNodes_cons_eq_ok.2
      ⟨⟨"B", "o1"⟩, _, eq_ok_of_toOption (by decide), ?_, ?_, ?_, rfl⟩
    · simp [Name.isIn, turns, hfold]
    · simp [Node.key, hfold]
    refine Table.readNodes_cons_eq_ok.2
      ⟨⟨"A", "o2"⟩, [], eq_ok_of_toOption (by decide), ?_, ?_, rfl, rfl⟩
    · simp [Name.isIn, turns, hfold]
    · simp [Node.key, hfold]
  refine bind_eq_ok.2 ⟨_, by rw [hliterals]; rfl, bind_eq_ok.2 ⟨_, hread, rfl⟩⟩

theorem build_turns : build .builtIn turnsConfiguration ["a", "b"] = .ok turns := by
  have hdefaults : buildDefaults .builtIn turnsConfiguration = .ok turns.defaults := by
    refine bind_eq_ok.2 ⟨none, rfl, bind_eq_ok.2 ⟨none, rfl, bind_eq_ok.2 ?_⟩⟩
    exact ⟨_, buildDefaultKeys_increment, rfl⟩
  have hname : Name.fold "orders" = "orders" := (List.cons.inj fold_turns).1
  have htable : Table.build .builtIn turns.dataSources turns.defaults.keyColumn
      (.ofName "orders" (some "a.o0,B.o1,A.o2")) = .ok turnsTable :=
    Table.build_ofName _ _ (by decide) hname (by decide) listedNodes_turns
  have hadd : addTable .builtIn turns.dataSources turns.defaults.keyColumn []
      (.ofName "orders" (some "a.o0,B.o1,A.o2")) = .ok turns.tables :=
    bind_eq_ok.2 ⟨_, htable, rfl⟩
  have htables : turnsConfiguration.tables.foldlM
      (addTable .builtIn turns.dataSources turns.defaults.keyColumn) [] = .ok turns.tables := by
    rw [turnsConfiguration, List.foldlM_cons, hadd]
    rfl
  apply bind_eq_ok.2
  refine ⟨_, readDataSources_shop, bind_eq_ok.2 ⟨_, hdefaults, ?_⟩⟩
  apply bind_eq_ok.2
  exact ⟨_, htables, bind_eq_ok.2 ⟨_, rfl, rfl⟩⟩

theorem nodes_grouped_turns :
    build .builtIn turnsConfiguration ["a", "b"] = .ok turns ∧ turnsTable ∈ turns.tables ∧
      turnsTable.Grouped ∧
      turnsTable.groups = [("a", [⟨"a", "o0"⟩, ⟨"a", "o2"⟩]), ("B", [⟨"B", "o1"⟩])] ∧
      turnsTable.placeOf "A" "O2" = some 1 := by
  have hfold := fold_turns
  simp only [List.map_cons, List.map_nil, List.cons.injEq, and_true] at hfold
  have hmem : turnsTable ∈ turns.tables := List.mem_singleton_self _
  have hgrouped := nodes_grouped build_turns (.inl hmem)
  have hgroups : turnsTable.groups =
      [("a", [⟨"a", "o0"⟩, ⟨"a", "o2"⟩]), ("B", [⟨"B", "o1"⟩])] := by
    simp [Table.groups_eq, Table.names, turnsTable, Node.at, Name.distinct_cons,
      Node.isInDataSource, Name.same, hfold]
  have hsame : Node.same ⟨"A", "o2"⟩ ⟨"A", "O2"⟩ := by simp [Node.same, Node.key, hfold]
  have hbefore : [Node.mk "a" "o0", ⟨"B", "o1"⟩].countP (·.isInDataSource "A") = 1 := by
    simp [Node.isInDataSource, Name.same, hfold]
  have hplace := (hgrouped.place [⟨"a", "o0"⟩, ⟨"B", "o1"⟩] ⟨"A", "o2"⟩ [] rfl "A" "O2" hsame).1
  rw [hbefore] at hplace
  exact ⟨build_turns, hmem, hgrouped, hgroups, hplace⟩

end Sharding.Rule
