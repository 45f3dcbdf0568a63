import Sharding.Proofs.Binding
import Sharding.Proofs.Rule.Routing
import Sharding.Proofs.Text
/-!
# Consistent rules

Whatever a rule was built from, its names are in normal form and apart from each other, its groups
hold tables that match, and no route of it leaves the nodes of its table.
-/

namespace Sharding

/-- No table is a member of both groups. -/
def BindingGroup.Disjoint (a b : BindingGroup) : Prop :=
  ∀ x ∈ a.members, ∀ y ∈ b.members, x.name ≠ y.name

namespace Table

open Outcome

theorem name_ne_empty_of_build {catalog : Catalog} {dataSources : List String}
    {keyColumn : Option String} {config : Configuration.Table} {table : Table}
    (h : build catalog dataSources keyColumn config = .ok table) : table.name ≠ "" := by
  obtain ⟨⟨trimmed, htrimmed, hname⟩, _⟩ := build_eq_ok h
  have hblank := Text.not_isBlank_fold (Text.trimmed_of_content? htrimmed).2
  intro hempty
  rw [← hname, hempty] at hblank
  exact hblank rfl

/-- What is left of a table are some of its nodes, each once. -/
theorem sublist_of_resolve {table : Table} {defaults : Defaults}
    {predicates : Level → List Predicate} {nodes : List Node}
    (h : table.resolve defaults predicates = .ok nodes) : nodes.Sublist table.nodes := by
  cases hbroadcast : table.broadcast with
  | true =>
    rw [resolve, if_pos hbroadcast] at h
    cases h
    exact List.Sublist.refl _
  | false =>
    obtain ⟨left, _, rfl⟩ := resolve_eq_ok hbroadcast h
    exact List.filter_sublist

end Table

namespace Rule

open Outcome

/-- Everything that building a rule establishes. -/
structure Consistent (rule : Rule) : Prop extends rule.WellFormed where
  dataSources_trimmed : ∀ dataSource ∈ rule.dataSources,
    Text.trim dataSource = dataSource ∧ ¬Text.isBlank dataSource
  names_ne_empty : ∀ table ∈ rule.tables, table.name ≠ ""
  groups_wellFormed : ∀ group ∈ rule.bindingGroups, group.WellFormed
  groups_disjoint : rule.bindingGroups.Pairwise BindingGroup.Disjoint
  broadcastTables_folded : ∀ name ∈ rule.broadcastTables, Name.fold name = name ∧ ¬Text.isBlank name
  broadcastTables_distinct : rule.broadcastTables.Nodup

theorem readDataSources_trimmed {names dataSources : List String}
    (h : readDataSources names = .ok dataSources) :
    ∀ dataSource ∈ dataSources, Text.trim dataSource = dataSource ∧ ¬Text.isBlank dataSource := by
  obtain ⟨trimmed, htrimmed, h⟩ := bind_eq_ok.1 h
  split at h
  · cases h
  · cases h
    intro dataSource hmem
    obtain ⟨name, _, hname⟩ := (mem_of_mapM htrimmed).1 (Name.distinct_subset trimmed hmem)
    cases hcontent : Text.content? name with
    | none =>
      rw [hcontent] at hname
      cases hname
    | some content =>
      rw [hcontent] at hname
      cases hname
      exact Text.trimmed_of_content? hcontent

theorem readBroadcastTables_folded {names : List String} :
    ∀ name ∈ readBroadcastTables names, Name.fold name = name ∧ ¬Text.isBlank name := by
  intro name hname
  rw [readBroadcastTables, List.mem_eraseDups] at hname
  obtain ⟨content, hcontent, rfl⟩ := List.mem_map.1 hname
  obtain ⟨given, _, hgiven⟩ := List.mem_filterMap.1 hcontent
  exact ⟨Name.fold_fold content, Text.not_isBlank_fold (Text.trimmed_of_content? hgiven).2⟩

/-- The members that are read are distinct and in no group before theirs. -/
theorem readMembers_distinct {tables members found : List Table} {bound names : List String}
    (hdistinct : members.Pairwise fun a b => a.name ≠ b.name)
    (hfree : ∀ member ∈ members, member.name ∉ bound)
    (h : readMembers tables bound members names = .ok found) :
    (found.Pairwise fun a b => a.name ≠ b.name) ∧ ∀ member ∈ found, member.name ∉ bound := by
  induction names generalizing members with
  | nil =>
    cases h
    exact ⟨hdistinct, hfree⟩
  | cons name names ih =>
    unfold readMembers at h
    split at h
    · cases h
    · next table hfind =>
      split at h
      · exact ih hdistinct hfree h
      · next hnew =>
        split at h
        · cases h
        · next hunbound =>
          simp only [List.any_eq_true, beq_iff_eq, not_exists, not_and] at hnew
          refine ih ?_ ?_ h
          · refine List.pairwise_append.2 ⟨hdistinct, List.pairwise_singleton _ _, ?_⟩
            intro a ha b hb
            cases List.mem_singleton.1 hb
            exact hnew a ha
          · intro member hmember
            rcases List.mem_append.1 hmember with hmember | hmember
            · exact hfree member hmember
            · cases List.mem_singleton.1 hmember
              simpa using hunbound

/-- The groups that are built match within and share no table with each other or those before. -/
theorem buildGroups_disjoint {tables : List Table} {bound names : List String}
    {groups : List BindingGroup} (h : buildGroups tables bound names = .ok groups) :
    (∀ group ∈ groups, group.WellFormed ∧ ∀ member ∈ group.members, member.name ∉ bound) ∧
      groups.Pairwise BindingGroup.Disjoint := by
  induction names generalizing bound groups with
  | nil =>
    cases h
    exact ⟨List.forall_mem_nil _, .nil⟩
  | cons name names ih =>
    obtain ⟨members, hmembers, h⟩ := bind_eq_ok.1 h
    obtain ⟨first, hfirst, h⟩ := bind_eq_ok.1 h
    obtain ⟨rest, hrest, h⟩ := bind_eq_ok.1 h
    cases h
    obtain ⟨hdistinct, hfree⟩ := readMembers_distinct .nil (List.forall_mem_nil _) hmembers
    obtain ⟨hfirstMembers, hlength, hcounts⟩ := BindingGroup.build_eq_ok hfirst
    -- the later groups are built with the members of this one among the bound
    obtain ⟨hrestGroups, hrestDisjoint⟩ := ih hrest
    rw [← hfirstMembers] at hdistinct hfree hlength hcounts
    have hapart : ∀ group ∈ rest, BindingGroup.Disjoint first group := by
      intro group hgroup a ha b hb heq
      apply (hrestGroups group hgroup).2 b hb
      rw [← heq, ← hfirstMembers]
      exact List.mem_append_right _ (List.mem_map_of_mem ha)
    refine ⟨List.forall_mem_cons.2 ⟨⟨⟨hlength, hdistinct, hcounts⟩, hfree⟩, ?_⟩,
      List.pairwise_cons.2 ⟨hapart, hrestDisjoint⟩⟩
    intro group hgroup
    obtain ⟨hwellFormed, hnew⟩ := hrestGroups group hgroup
    exact ⟨hwellFormed, fun member hmember hbound =>
      hnew member hmember (List.mem_append_left _ hbound)⟩

variable {catalog : Catalog} {config : Configuration.Rule} {names : List String} {rule : Rule}

theorem broadcastTables_of_build (h : build catalog config names = .ok rule) :
    rule.broadcastTables = readBroadcastTables config.broadcastTables := by
  obtain ⟨_, _, h⟩ := bind_eq_ok.1 h
  obtain ⟨_, _, h⟩ := bind_eq_ok.1 h
  obtain ⟨_, _, h⟩ := bind_eq_ok.1 h
  obtain ⟨_, _, h⟩ := bind_eq_ok.1 h
  cases h
  rfl

theorem consistent_of_build (h : build catalog config names = .ok rule) : rule.Consistent := by
  obtain ⟨hdataSources, _, htables, hgroups⟩ := build_eq_ok h
  have hbroadcast := broadcastTables_of_build h
  obtain ⟨hgroupsBuilt, hdisjoint⟩ := buildGroups_disjoint hgroups
  refine ⟨build_wellFormed h, readDataSources_trimmed hdataSources, ?_,
    fun group hgroup => (hgroupsBuilt group hgroup).1, hdisjoint, ?_, ?_⟩
  · intro table htable
    obtain ⟨config, hbuild⟩ := htables.built table htable
    exact Table.name_ne_empty_of_build hbuild
  · rw [hbroadcast]
    exact readBroadcastTables_folded
  · rw [hbroadcast]
    exact nodup_eraseDups _

/-- The nodes of a table that a rule knows, configured or broadcast. -/
theorem WellFormed.nodes_of_table (hrule : rule.WellFormed) {name : String} {table : Table}
    (h : rule.table name = .ok table) :
    table.nodes ≠ [] ∧ table.nodes.Pairwise fun a b => a.key ≠ b.key := by
  rw [Rule.table] at h
  split at h
  · next found hfound =>
    cases h
    have htable := hrule.tables_wellFormed table (List.mem_of_find?_eq_some hfound)
    exact ⟨htable.nodes_ne_nil, htable.nodes_distinct⟩
  · split at h
    · cases h
      refine ⟨?_, Table.placedNodes_distinct hrule.dataSources_distinct⟩
      intro hnil
      exact hrule.dataSources_ne_nil (List.map_eq_nil_iff.1 hnil)
    · cases h

/-- A rule that was built is consistent, whatever its catalog. Every table that it knows has a first
node, and a route yields some of the nodes of its table, in their order and each once. -/
theorem build_consistent (h : build catalog config names = .ok rule) :
    rule.Consistent ∧
      (∀ name table, rule.table name = .ok table → ∃ node, rule.node name = .ok node) ∧
      ∀ name predicates hints nodes, rule.route name predicates hints = .ok nodes →
        ∃ table, rule.table name = .ok table ∧ nodes.Sublist table.nodes ∧
          nodes.Pairwise fun a b => a.key ≠ b.key := by
  have hrule := consistent_of_build h
  refine ⟨hrule, ?_, ?_⟩
  · intro name table htable
    obtain ⟨node, nodes, hnodes⟩ := List.exists_cons_of_ne_nil (hrule.nodes_of_table htable).1
    refine ⟨node, bind_eq_ok.2 ⟨table, htable, ?_⟩⟩
    rw [hnodes]
    rfl
  · intro name predicates hints nodes hroute
    obtain ⟨table, htable, hresolve⟩ := bind_eq_ok.1 hroute
    have hsublist := Table.sublist_of_resolve hresolve
    exact ⟨table, htable, hsublist, (hrule.nodes_of_table htable).2.sublist hsublist⟩

theorem build_consistent_shop :
    build Catalog.builtIn shopConfiguration ["a", "b"] = .ok shop ∧ shop.Consistent :=
  ⟨build_shop, (build_consistent build_shop).1⟩

end Rule

end Sharding
