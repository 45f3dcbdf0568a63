import Sharding.Proofs.Name
import Sharding.Proofs.Outcome
import Sharding.Table.Build
/-!
# Built tables

A table that was built has nodes, no two of them the same, all in known data sources.
-/

namespace Sharding.Table

open Outcome

structure WellFormed (dataSources : List String) (table : Table) : Prop where
  name_folded : Name.fold table.name = table.name
  nodes_ne_nil : table.nodes ≠ []
  nodes_distinct : table.nodes.Pairwise fun a b => a.key ≠ b.key
  nodes_known : ∀ node ∈ table.nodes, Name.isIn dataSources node.dataSource
  not_broadcast : table.broadcast = false

/-- Each node that is read is in a known data source and new. -/
theorem readNodes_cons_eq_ok {table literal : String} {dataSources literals : List String}
    {seen : List (String × String)} {nodes : List Node} :
    readNodes table dataSources seen (literal :: literals) = .ok nodes ↔
      ∃ node rest, Node.parse literal = .ok node ∧ Name.isIn dataSources node.dataSource ∧
        node.key ∉ seen ∧
        readNodes table dataSources (node.key :: seen) literals = .ok rest ∧
        nodes = node :: rest := by
  constructor
  · intro h
    obtain ⟨node, hparse, h⟩ := bind_eq_ok.1 h
    by_cases hunknown : !Name.isIn dataSources node.dataSource
    · rw [if_pos hunknown] at h
      cases h
    · rw [if_neg hunknown] at h
      by_cases hseen : seen.contains node.key
      · rw [if_pos hseen] at h
        cases h
      · rw [if_neg hseen] at h
        obtain ⟨rest, hrest, h⟩ := bind_eq_ok.1 h
        refine ⟨node, rest, hparse, ?_, ?_, hrest, (Except.ok.inj h).symm⟩
        · simpa using hunknown
        · simpa using hseen
  · rintro ⟨node, rest, hparse, hknown, hnew, hrest, rfl⟩
    refine bind_eq_ok.2 ⟨node, hparse, ?_⟩
    rw [if_neg (by simp [hknown]), if_neg (by simpa using hnew)]
    exact bind_eq_ok.2 ⟨rest, hrest, rfl⟩

theorem readNodes_distinct {table : String} {dataSources literals : List String}
    {seen : List (String × String)} {nodes : List Node}
    (h : readNodes table dataSources seen literals = .ok nodes) :
    nodes.Pairwise (fun a b => a.key ≠ b.key) ∧
      ∀ node ∈ nodes, node.key ∉ seen ∧ Name.isIn dataSources node.dataSource := by
  induction literals generalizing seen nodes with
  | nil =>
    cases h
    exact ⟨.nil, by simp⟩
  | cons literal literals ih =>
    obtain ⟨node, rest, _, hknown, hnew, hrest, rfl⟩ := readNodes_cons_eq_ok.1 h
    -- the later nodes are read with the key of this one among the seen
    obtain ⟨hdistinct, hothers⟩ := ih hrest
    refine ⟨List.pairwise_cons.2 ⟨?_, hdistinct⟩, ?_⟩
    · intro other hother heq
      exact (hothers other hother).1 (List.mem_cons.2 (.inl heq.symm))
    · intro other hother
      rcases List.mem_cons.1 hother with rfl | hother
      · exact ⟨hnew, hknown⟩
      · obtain ⟨hkey, hknown⟩ := hothers other hother
        exact ⟨fun hmem => hkey (List.mem_cons_of_mem _ hmem), hknown⟩

theorem placedNodes_distinct {table : String} {dataSources : List String}
    (h : dataSources.Pairwise fun a b => Name.fold a ≠ Name.fold b) :
    (placedNodes table dataSources).Pairwise fun a b => a.key ≠ b.key := by
  apply List.pairwise_map.2
  apply h.imp
  intro a b hne heq
  exact hne (congrArg Prod.fst heq)

theorem nodes_of_listedNodes {table expression : String} {dataSources : List String}
    {nodes : List Node} (h : listedNodes table dataSources expression = .ok nodes) :
    nodes ≠ [] ∧ ∃ literals, readNodes table dataSources [] literals = .ok nodes := by
  obtain ⟨literals, _, h⟩ := bind_eq_ok.1 h
  obtain ⟨read, hread, h⟩ := bind_eq_ok.1 h
  split at h
  · cases h
  · next hne =>
    cases h
    exact ⟨hne, literals, hread⟩

/-- A built table has the listed nodes or is placed on every data source, and its strategies are
those of its configuration. -/
theorem build_eq_ok {catalog : Catalog} {dataSources : List String} {keyColumn : Option String}
    {config : Configuration.Table} {table : Table}
    (h : build catalog dataSources keyColumn config = .ok table) :
    (∃ name, Text.content? config.name = some name ∧ table.name = Name.fold name) ∧
      table.broadcast = false ∧
      ((∃ expression, listedNodes table.name dataSources expression = .ok table.nodes) ∨
        table.nodes = placedNodes table.name dataSources) ∧
      config.databaseStrategy.mapM (Strategy.build catalog) = .ok table.databaseStrategy ∧
      config.tableStrategy.mapM (Strategy.build catalog) = .ok table.tableStrategy := by
  unfold build at h
  split at h
  · cases h
  · next name hname =>
    dsimp only at h
    split at h
    · next expression _ =>
      obtain ⟨nodes, hnodes, h⟩ := bind_eq_ok.1 h
      obtain ⟨_, hdatabase, h⟩ := bind_eq_ok.1 h
      obtain ⟨_, htable, h⟩ := bind_eq_ok.1 h
      obtain ⟨_, _, h⟩ := bind_eq_ok.1 h
      cases h
      exact ⟨⟨name, hname, rfl⟩, rfl, .inl ⟨expression, hnodes⟩, hdatabase, htable⟩
    · obtain ⟨nodes, hnodes, h⟩ := bind_eq_ok.1 h
      obtain ⟨_, hdatabase, h⟩ := bind_eq_ok.1 h
      obtain ⟨_, htable, h⟩ := bind_eq_ok.1 h
      obtain ⟨_, _, h⟩ := bind_eq_ok.1 h
      cases hnodes
      cases h
      exact ⟨⟨name, hname, rfl⟩, rfl, .inr rfl, hdatabase, htable⟩

theorem build_wellFormed {catalog : Catalog} {dataSources : List String}
    {keyColumn : Option String} {config : Configuration.Table} {table : Table}
    (hne : dataSources ≠ [])
    (hdistinct : dataSources.Pairwise fun a b => Name.fold a ≠ Name.fold b)
    (h : build catalog dataSources keyColumn config = .ok table) :
    table.WellFormed dataSources := by
  obtain ⟨⟨name, _, hname⟩, hbroadcast, hnodes, _⟩ := build_eq_ok h
  have hfolded : Name.fold table.name = table.name := by
    rw [hname, Name.fold_fold]
  rcases hnodes with ⟨expression, hlisted⟩ | hplaced
  · obtain ⟨hnodes, literals, hread⟩ := nodes_of_listedNodes hlisted
    obtain ⟨hnodesDistinct, hall⟩ := readNodes_distinct hread
    exact ⟨hfolded, hnodes, hnodesDistinct, fun node hnode => (hall node hnode).2, hbroadcast⟩
  · have hplacedNe : table.nodes ≠ [] := by
      rw [hplaced]
      simpa [placedNodes] using hne
    have hplacedDistinct : table.nodes.Pairwise fun a b => a.key ≠ b.key := by
      rw [hplaced]
      exact placedNodes_distinct hdistinct
    refine ⟨hfolded, hplacedNe, hplacedDistinct, ?_, hbroadcast⟩
    intro node hnode
    rw [hplaced] at hnode
    obtain ⟨dataSource, hmem, rfl⟩ := List.mem_map.1 hnode
    exact Name.isIn_of_mem hmem

/-- The strategies of a built table were built from its configuration. -/
theorem strategy_of_build {catalog : Catalog} {dataSources : List String}
    {keyColumn : Option String} {config : Configuration.Table} {table : Table}
    (h : build catalog dataSources keyColumn config = .ok table) {level : Level}
    {strategy : Strategy} (hstrategy : table.strategy level = some strategy) :
    ∃ config, Strategy.build catalog config = .ok strategy := by
  obtain ⟨_, _, _, hdatabase, htable⟩ := build_eq_ok h
  cases level with
  | database => exact exists_of_optionMapM hdatabase hstrategy
  | table => exact exists_of_optionMapM htable hstrategy

/-- A table with nothing but its nodes. -/
theorem build_ofName (catalog : Catalog) {dataSources : List String} (keyColumn : Option String)
    {name trimmed folded nodes expression : String} {listed : List Node}
    (hname : Text.content? name = some trimmed) (hfold : Name.fold trimmed = folded)
    (hnodes : Text.content? nodes = some expression)
    (hlisted : listedNodes folded dataSources expression = .ok listed) :
    build catalog dataSources keyColumn (.ofName name (some nodes)) =
      .ok ⟨folded, listed, none, none, keyColumn, none, false⟩ := by
  simp only [build, Configuration.Table.ofName, hname, Option.bind_some, hnodes, hfold, hlisted]
  rfl

end Sharding.Table
