import Sharding.Proofs.Strategy.Resolve
import Sharding.Proofs.Table.Build
import Sharding.Rule.Build
/-!
# Built rules

A rule that was built holds tables that were built, under names of their own, and its binding groups
are made of these tables. A table is found by any spelling of its name.
-/

namespace Sharding.Rule

open Outcome

structure WellFormed (rule : Rule) : Prop where
  dataSources_ne_nil : rule.dataSources ≠ []
  dataSources_distinct : rule.dataSources.Pairwise fun a b => Name.fold a ≠ Name.fold b
  tables_wellFormed : ∀ table ∈ rule.tables, table.WellFormed rule.dataSources
  names_distinct : rule.tables.Pairwise fun a b => a.name ≠ b.name
  members_configured : ∀ group ∈ rule.bindingGroups, ∀ member ∈ group.members,
    member ∈ rule.tables

theorem readDataSources_distinct {names dataSources : List String}
    (h : readDataSources names = .ok dataSources) :
    dataSources ≠ [] ∧ dataSources.Pairwise fun a b => Name.fold a ≠ Name.fold b := by
  obtain ⟨trimmed, _, h⟩ := bind_eq_ok.1 h
  split at h
  · cases h
  · next hne =>
    cases h
    exact ⟨hne, Name.pairwise_distinct trimmed⟩

/-- What was built of the tables: each from a configuration, and no two under one name. -/
structure TablesBuilt (catalog : Catalog) (dataSources : List String)
    (keyColumn : Option String) (tables : List Table) : Prop where
  built : ∀ table ∈ tables, ∃ config, Table.build catalog dataSources keyColumn config = .ok table
  distinct : tables.Pairwise fun a b => a.name ≠ b.name

theorem addTable_tablesBuilt {catalog : Catalog} {dataSources : List String}
    {keyColumn : Option String} {tables next : List Table} {config : Configuration.Table}
    (htables : TablesBuilt catalog dataSources keyColumn tables)
    (h : addTable catalog dataSources keyColumn tables config = .ok next) :
    TablesBuilt catalog dataSources keyColumn next := by
  obtain ⟨table, htable, h⟩ := bind_eq_ok.1 h
  split at h
  · cases h
  · next hnew =>
    cases h
    simp only [List.any_eq_true, beq_iff_eq, not_exists, not_and] at hnew
    constructor
    · intro other hother
      rcases List.mem_append.1 hother with hother | hother
      · exact htables.built other hother
      · cases List.mem_singleton.1 hother
        exact ⟨config, htable⟩
    · apply List.pairwise_append.2
      refine ⟨htables.distinct, List.pairwise_singleton _ _, ?_⟩
      intro a ha b hb
      cases List.mem_singleton.1 hb
      exact hnew a ha

theorem foldlM_addTable_tablesBuilt {catalog : Catalog} {dataSources : List String}
    {keyColumn : Option String} {configs : List Configuration.Table} {tables next : List Table}
    (htables : TablesBuilt catalog dataSources keyColumn tables)
    (h : configs.foldlM (addTable catalog dataSources keyColumn) tables = .ok next) :
    TablesBuilt catalog dataSources keyColumn next := by
  induction configs generalizing tables with
  | nil =>
    cases h
    exact htables
  | cons config configs ih =>
    rw [List.foldlM_cons] at h
    obtain ⟨more, hmore, h⟩ := bind_eq_ok.1 h
    exact ih (addTable_tablesBuilt htables hmore) h

theorem readMembers_subset {tables members found : List Table} {bound names : List String}
    (hmembers : members ⊆ tables) (h : readMembers tables bound members names = .ok found) :
    found ⊆ tables := by
  induction names generalizing members with
  | nil =>
    cases h
    exact hmembers
  | cons name names ih =>
    unfold readMembers at h
    split at h
    · cases h
    · next table hfind =>
      have htable : table ∈ tables := List.mem_of_find?_eq_some hfind
      split at h
      · exact ih hmembers h
      · split at h
        · cases h
        · apply ih _ h
          intro other hother
          rcases List.mem_append.1 hother with hother | hother
          · exact hmembers hother
          · exact List.mem_singleton.1 hother ▸ htable

theorem members_of_build {members : List Table} {group : BindingGroup}
    (h : BindingGroup.build members = .ok group) : group.members = members := by
  unfold BindingGroup.build at h
  split at h
  · split at h <;> cases h
    rfl
  · cases h

theorem buildGroups_subset {tables : List Table} {bound names : List String}
    {groups : List BindingGroup} (h : buildGroups tables bound names = .ok groups) :
    ∀ group ∈ groups, group.members ⊆ tables := by
  induction names generalizing bound groups with
  | nil =>
    cases h
    exact fun _ hgroup => nomatch hgroup
  | cons name names ih =>
    obtain ⟨members, hmembers, h⟩ := bind_eq_ok.1 h
    obtain ⟨first, hfirst, h⟩ := bind_eq_ok.1 h
    obtain ⟨rest, hrest, h⟩ := bind_eq_ok.1 h
    cases h
    intro group hgroup
    rcases List.mem_cons.1 hgroup with rfl | hgroup
    · rw [members_of_build hfirst]
      exact readMembers_subset (List.nil_subset _) hmembers
    · exact ih hrest group hgroup

/-! ## The rule as a whole -/

variable {catalog : Catalog} {config : Configuration.Rule} {names : List String} {rule : Rule}

theorem build_eq_ok (h : build catalog config names = .ok rule) :
    readDataSources names = .ok rule.dataSources ∧
      buildDefaults catalog config = .ok rule.defaults ∧
      TablesBuilt catalog rule.dataSources rule.defaults.keyColumn rule.tables ∧
      buildGroups rule.tables [] config.bindingGroups = .ok rule.bindingGroups := by
  obtain ⟨dataSources, hdataSources, h⟩ := bind_eq_ok.1 h
  obtain ⟨defaults, hdefaults, h⟩ := bind_eq_ok.1 h
  obtain ⟨tables, htables, h⟩ := bind_eq_ok.1 h
  obtain ⟨groups, hgroups, h⟩ := bind_eq_ok.1 h
  cases h
  have hnone : TablesBuilt catalog dataSources defaults.keyColumn [] :=
    ⟨List.forall_mem_nil _, .nil⟩
  exact ⟨hdataSources, hdefaults, foldlM_addTable_tablesBuilt hnone htables, hgroups⟩

theorem build_wellFormed (h : build catalog config names = .ok rule) : rule.WellFormed := by
  obtain ⟨hdataSources, _, htables, hgroups⟩ := build_eq_ok h
  obtain ⟨hne, hdistinct⟩ := readDataSources_distinct hdataSources
  refine ⟨hne, hdistinct, ?_, htables.distinct, buildGroups_subset hgroups⟩
  intro table htable
  obtain ⟨config, hbuild⟩ := htables.built table htable
  exact Table.build_wellFormed hne hdistinct hbuild

theorem strategy_of_buildDefaults {defaults : Defaults}
    (h : buildDefaults catalog config = .ok defaults) {level : Level} {strategy : Strategy}
    (hstrategy : defaults.strategy level = some strategy) :
    ∃ config, Strategy.build catalog config = .ok strategy := by
  obtain ⟨_, hdatabase, h⟩ := bind_eq_ok.1 h
  obtain ⟨_, htable, h⟩ := bind_eq_ok.1 h
  obtain ⟨_, _, h⟩ := bind_eq_ok.1 h
  cases h
  cases level with
  | database => exact exists_of_optionMapM hdatabase hstrategy
  | table => exact exists_of_optionMapM htable hstrategy

/-- Own or default, the strategy of a table was built with the catalog of the rule. -/
theorem effectiveStrategy_of_build (h : build catalog config names = .ok rule) {table : Table}
    (htable : table ∈ rule.tables) {level : Level} {strategy : Strategy}
    (hstrategy : table.effectiveStrategy rule.defaults level = some strategy) :
    ∃ config, Strategy.build catalog config = .ok strategy := by
  obtain ⟨_, hdefaults, htables, _⟩ := build_eq_ok h
  rcases Option.or_eq_some_iff.1 hstrategy with hown | ⟨_, hdefault⟩
  · obtain ⟨config, hbuild⟩ := htables.built table htable
    exact Table.strategy_of_build hbuild hown
  · exact strategy_of_buildDefaults hdefaults hdefault

theorem WellFormed.eq_of_name_eq (hrule : rule.WellFormed) {a b : Table} (ha : a ∈ rule.tables)
    (hb : b ∈ rule.tables) (h : a.name = b.name) : a = b :=
  List.inj_on_of_nodup_map (List.pairwise_map.2 hrule.names_distinct) ha hb h

/-- A table of the rule is found under every spelling of its name. -/
theorem WellFormed.findTable?_eq_some (hrule : rule.WellFormed) {table : Table}
    (htable : table ∈ rule.tables) {name : String} (hname : Name.same table.name name) :
    rule.findTable? name = some table := by
  have hfound : (rule.findTable? name).isSome :=
    List.find?_isSome.2 ⟨table, htable, hname⟩
  obtain ⟨found, hfound⟩ := Option.isSome_iff_exists.1 hfound
  have hmem : found ∈ rule.tables := List.mem_of_find?_eq_some hfound
  have hsame := List.find?_some hfound
  have hfold : found.name = table.name := by
    rw [← (hrule.tables_wellFormed found hmem).name_folded,
      ← (hrule.tables_wellFormed table htable).name_folded]
    exact (Name.same_iff.1 hsame).trans (Name.same_iff.1 hname).symm
  rw [hfound, hrule.eq_of_name_eq hmem htable hfold]

/-! ## A shop

Two bound tables on a grid of two data sources with two physical tables each.
-/

def halves : Properties := Dictionary.empty.insert "sharding-count" "2"

def shopConfiguration : Configuration.Rule where
  tables := [.ofName "orders" (some "a.o0,a.o1,b.o0,b.o1"),
    .ofName "items" (some "a.i0,a.i1,b.i0,b.i1")]
  bindingGroups := ["orders,items"]
  broadcastTables := []
  databaseStrategy := some (.standard (some "user") (some ⟨"MOD", halves⟩))
  tableStrategy := some (.standard (some "id") (some ⟨"MOD", halves⟩))
  keyGenerator := some ⟨"id", .ofType "INCREMENT"⟩

def orders : Table where
  name := "orders"
  nodes := [⟨"a", "o0"⟩, ⟨"a", "o1"⟩, ⟨"b", "o0"⟩, ⟨"b", "o1"⟩]
  databaseStrategy := none
  tableStrategy := none
  keyColumn := some "id"
  keyGenerator := none
  broadcast := false

def items : Table :=
  { orders with
    name := "items"
    nodes := [⟨"a", "i0"⟩, ⟨"a", "i1"⟩, ⟨"b", "i0"⟩, ⟨"b", "i1"⟩] }

def shop : Rule where
  dataSources := ["a", "b"]
  tables := [orders, items]
  bindingGroups := [⟨[orders, items]⟩]
  broadcastTables := []
  defaults :=
    { databaseStrategy := some (.standard "user" (Algorithm.modulo halves))
      tableStrategy := some (.standard "id" (Algorithm.modulo halves))
      keyColumn := some "id"
      keyGenerator := some (Key.increment .empty) }

theorem readDataSources_shop : readDataSources ["a", "b"] = .ok ["a", "b"] :=
  eq_ok_of_toOption (by decide +kernel)

theorem build_orders : Table.build Catalog.builtIn shop.dataSources shop.defaults.keyColumn
    (.ofName "orders" (some "a.o0,a.o1,b.o0,b.o1")) = .ok orders := by
  have hname : Name.fold "orders" = "orders" := Name.fold_eq_iff.2 (by decide)
  have hlisted : Table.listedNodes "orders" shop.dataSources "a.o0,a.o1,b.o0,b.o1" =
      .ok orders.nodes := eq_ok_of_toOption (by decide +kernel)
  exact Table.build_ofName _ _ (by decide) hname (by decide) hlisted

theorem build_items : Table.build Catalog.builtIn shop.dataSources shop.defaults.keyColumn
    (.ofName "items" (some "a.i0,a.i1,b.i0,b.i1")) = .ok items := by
  have hname : Name.fold "items" = "items" := Name.fold_eq_iff.2 (by decide)
  have hlisted : Table.listedNodes "items" shop.dataSources "a.i0,a.i1,b.i0,b.i1" =
      .ok items.nodes := eq_ok_of_toOption (by decide +kernel)
  exact Table.build_ofName _ _ (by decide) hname (by decide) hlisted

theorem build_halves (column : String) (hcolumn : Text.content? column = some column) :
    Strategy.build .builtIn (.standard (some column) (some ⟨"MOD", halves⟩)) =
      .ok (.standard column (Algorithm.modulo halves)) := by
  have hupper : "MOD".toUpper = "MOD" := Catalog.toUpper_eq_iff.2 (by decide)
  have hmake := Catalog.make_standard ⟨"MOD", halves⟩ (by simp [hupper])
  rw [hupper] at hmake
  have hcheck : (Algorithm.modulo halves).check = .ok () := eq_ok_of_toOption (by decide)
  have hcreate : Catalog.builtIn.createStandard ⟨"MOD", halves⟩ = .ok (Algorithm.modulo halves) :=
    bind_eq_ok.2 ⟨_, hmake, bind_eq_ok.2 ⟨_, hcheck, rfl⟩⟩
  refine bind_eq_ok.2 ⟨column, rfl, bind_eq_ok.2 ⟨_, rfl, bind_eq_ok.2 ⟨_, hcreate, ?_⟩⟩⟩
  rw [hcolumn]
  rfl

theorem createKeyGenerator_ofIncrement :
    Catalog.builtIn.createKeyGenerator (.ofType "INCREMENT") = .ok (Key.increment .empty) :=
  Catalog.createKeyGenerator_increment (Catalog.toUpper_eq_iff.2 (by decide))

theorem buildDefaultKeys_increment :
    buildDefaultKeys .builtIn (some ⟨"id", .ofType "INCREMENT"⟩) =
      .ok (some "id", Key.increment .empty) := by
  have hcontent : Text.content? "id" = some "id" := by decide
  refine bind_eq_ok.2 ⟨_, createKeyGenerator_ofIncrement, ?_⟩
  rw [hcontent]

theorem build_shop : build Catalog.builtIn shopConfiguration ["a", "b"] = .ok shop := by
  have hdatabase := build_halves "user" (by decide)
  have htable := build_halves "id" (by decide)
  have hdefaults : buildDefaults Catalog.builtIn shopConfiguration = .ok shop.defaults := by
    refine bind_eq_ok.2 ⟨_, map_eq_ok.2 ⟨_, hdatabase, rfl⟩, bind_eq_ok.2 ?_⟩
    refine ⟨_, map_eq_ok.2 ⟨_, htable, rfl⟩, bind_eq_ok.2 ?_⟩
    exact ⟨_, buildDefaultKeys_increment, rfl⟩
  have htables : shopConfiguration.tables.foldlM
      (addTable Catalog.builtIn shop.dataSources shop.defaults.keyColumn) [] = .ok shop.tables := by
    have horders : addTable .builtIn shop.dataSources shop.defaults.keyColumn []
        (.ofName "orders" (some "a.o0,a.o1,b.o0,b.o1")) = .ok [orders] :=
      bind_eq_ok.2 ⟨orders, build_orders, rfl⟩
    have hitems : addTable .builtIn shop.dataSources shop.defaults.keyColumn [orders]
        (.ofName "items" (some "a.i0,a.i1,b.i0,b.i1")) = .ok [orders, items] :=
      bind_eq_ok.2 ⟨items, build_items, rfl⟩
    rw [shopConfiguration, List.foldlM_cons, horders]
    refine bind_eq_ok.2 ⟨_, rfl, ?_⟩
    rw [List.foldlM_cons, hitems]
    rfl
  have hfields : Text.fields "orders,items" = ["orders", "items"] := by decide
  have hmembers : readMembers shop.tables [] [] (Text.fields "orders,items") =
      .ok [orders, items] := by
    have horders : Name.same orders.name "orders" := Name.same_iff.2 rfl
    have hother : Name.same orders.name "items" = false := (Name.same_eq _ _).trans rfl
    have hitems : Name.same items.name "items" := Name.same_iff.2 rfl
    have hne : orders.name ≠ items.name := by decide
    rw [hfields]
    simp [readMembers, shop, horders, hother, hitems, hne]
  have halike : BindingGroup.alike orders items := by decide +kernel
  have hgroup : BindingGroup.build [orders, items] = .ok ⟨[orders, items]⟩ := by
    simp [BindingGroup.build, halike]
  have hgroups : buildGroups shop.tables [] ["orders,items"] = .ok shop.bindingGroups := by
    apply bind_eq_ok.2
    refine ⟨_, hmembers, bind_eq_ok.2 ⟨_, hgroup, ?_⟩⟩
    exact bind_eq_ok.2 ⟨_, rfl, rfl⟩
  apply bind_eq_ok.2
  refine ⟨_, readDataSources_shop, bind_eq_ok.2 ⟨_, hdefaults, ?_⟩⟩
  apply bind_eq_ok.2
  exact ⟨_, htables, bind_eq_ok.2 ⟨_, hgroups, rfl⟩⟩

theorem readBroadcastTables_regions : readBroadcastTables ["regions"] = ["regions"] := by
  have hcontent : Text.content? "regions" = some "regions" := by decide
  have hfold : Name.fold "regions" = "regions" := Name.fold_eq_iff.2 (by decide)
  simp [readBroadcastTables, hcontent, hfold, List.eraseDups_cons]

theorem findTable?_shop : shop.findTable? "orders" = some orders :=
  List.find?_cons_of_pos (Name.same_iff.2 rfl)

end Sharding.Rule
