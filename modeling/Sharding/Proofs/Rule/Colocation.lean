import Sharding.Proofs.Rule.Routing
import Sharding.Proofs.Strategy.Correspondence
/-!
# Bound tables stay together

Two bound tables whose nodes are aligned are routed alike: the nodes that one statement reaches on
one of them are those that it reaches on the other, translated by their binding group. Routing
counts the distinct names of all nodes of a table and translation counts the nodes in one data
source; the nodes at one place of both lists are what the two have in common.
-/

namespace Sharding

open Outcome Name

namespace Table

variable {source target : Table} {s t : Node}

/-- The nodes at each place are in the same data source, and two nodes of one table are of the same
physical table exactly when those at their places in the other are. -/
structure Aligned (source target : Table) : Prop where
  dataSources :
    List.Forall₂ (fun s t => Name.same s.dataSource t.dataSource) source.nodes target.nodes
  tables : ∀ a ∈ source.nodes.zip target.nodes, ∀ b ∈ source.nodes.zip target.nodes,
    (Name.same a.1.table b.1.table ↔ Name.same a.2.table b.2.table)

/-- The nodes stand at one place. -/
def Beside (source target : Table) (s t : Node) : Prop :=
  (s, t) ∈ source.nodes.zip target.nodes

/-- The names that nodes at one place have at a level; a data source goes by any spelling. -/
def Counterpart (source target : Table) : Level → String → String → Prop
  | .database, a, b => Name.fold a = Name.fold b
  | .table, a, b => ∃ s t, source.Beside target s t ∧ s.table = a ∧ t.table = b

theorem Aligned.forall₂_beside (h : source.Aligned target) :
    List.Forall₂ (source.Beside target) source.nodes target.nodes :=
  List.forall₂_iff_zip.2 ⟨h.dataSources.length_eq, fun hmem => hmem⟩

theorem Aligned.same_dataSource (h : source.Aligned target) (hst : source.Beside target s t) :
    Name.fold s.dataSource = Name.fold t.dataSource :=
  Name.same_iff.1 ((List.forall₂_iff_zip.1 h.dataSources).2 hst)

theorem Aligned.counterpart_at (h : source.Aligned target) (hst : source.Beside target s t)
    (level : Level) : source.Counterpart target level (s.at level) (t.at level) := by
  cases level with
  | database => exact h.same_dataSource hst
  | table => exact ⟨s, t, hst, rfl, rfl⟩

theorem Aligned.faithful (h : source.Aligned target) (level : Level) :
    Faithful (source.Counterpart target level) := by
  cases level with
  | database => exact faithful_fold
  | table =>
    rintro _ _ _ _ ⟨s, t, hst, rfl, rfl⟩ ⟨s', t', hst', rfl, rfl⟩
    have htables := h.tables (s, t) hst (s', t') hst'
    rwa [Name.same_iff, Name.same_iff] at htables

theorem Aligned.forall₂_names (h : source.Aligned target) (level : Level) :
    List.Forall₂ (source.Counterpart target level) (source.names level) (target.names level) := by
  apply (h.faithful level).forall₂_distinct
  apply List.rel_map _ h.forall₂_beside
  intro s t hst
  exact h.counterpart_at hst level

theorem Aligned.resolve_agree (h : source.Aligned target) {defaults : Defaults}
    (hsource : source.broadcast = false) (htarget : target.broadcast = false)
    {predicates others : Level → List Predicate}
    (hlevels : ∀ level, Agree (HeldAlike (source.Counterpart target level))
      (source.narrow defaults level (predicates level))
      (target.narrow defaults level (others level))) :
    Agree (List.Forall₂ (source.Beside target)) (source.resolve defaults predicates)
      (target.resolve defaults others) := by
  rw [resolve_eq_bind hsource, resolve_eq_bind htarget]
  apply (hlevels .database).bind
  intro dataSources same hdataSources
  apply (hlevels .table).bind
  intro tables corresponding htables
  apply List.rel_filter _ h.forall₂_beside
  intro s t hst
  have hdataSource := hdataSources _ _ (h.counterpart_at hst .database)
  have htable := htables _ _ (h.counterpart_at hst .table)
  simp only [Level.pair, Bool.and_eq_true]
  exact and_congr hdataSource htable

/-- The physical tables in a data source correspond by their places there. -/
theorem Aligned.forall₂_actualTables (h : source.Aligned target) (dataSource : String) :
    List.Forall₂ (source.Counterpart target .table) (source.actualTables dataSource)
      (target.actualTables dataSource) := by
  have hnodes : List.Forall₂ (source.Beside target)
      (source.nodes.filter (·.isInDataSource dataSource))
      (target.nodes.filter (·.isInDataSource dataSource)) := by
    apply List.rel_filter _ h.forall₂_beside
    intro s t hst
    simp only [Node.isInDataSource, Name.same, h.same_dataSource hst]
  apply List.rel_map _ hnodes
  intro s t hst
  exact h.counterpart_at hst .table

end Table

namespace BindingGroup

/-- One node is the translation of another, up to spelling. -/
def Translates (group : BindingGroup) (source target : String) (s t : Node) : Prop :=
  Name.same t.dataSource s.dataSource ∧
    ∃ actual, group.translate s.dataSource source s.table target = .ok actual ∧
      Name.same t.table actual

theorem translates_of_beside {group : BindingGroup} {source target : String}
    {first second : Table} (hsource : group.find? source = some first)
    (htarget : group.find? target = some second) (haligned : first.Aligned second) {s t : Node}
    (hst : first.Beside second s t) : group.Translates source target s t := by
  have hactual := haligned.forall₂_actualTables s.dataSource
  have hmem : s.table ∈ first.actualTables s.dataSource := by
    apply List.mem_map.2
    refine ⟨s, List.mem_filter.2 ⟨(List.of_mem_zip hst).1, ?_⟩, rfl⟩
    exact Name.same_iff.2 rfl
  have hfound : ((first.actualTables s.dataSource).findIdx? (Name.same · s.table)).isSome := by
    rw [List.findIdx?_isSome, List.any_eq_true]
    exact ⟨s.table, hmem, Name.same_iff.2 rfl⟩
  obtain ⟨place, hplace⟩ := Option.isSome_iff_exists.1 hfound
  -- the table found there has the name of `s`, whether or not it is the one of `s`
  obtain ⟨hlt, hsame, _⟩ := List.findIdx?_eq_some_iff_getElem.1 hplace
  have hltTarget : place < (second.actualTables s.dataSource).length := hactual.length_eq ▸ hlt
  refine ⟨Name.same_iff.2 (haligned.same_dataSource hst).symm,
    (second.actualTables s.dataSource)[place], ?_, ?_⟩
  · simp only [translate, hsource, Option.bind_some, Table.placeOf, hplace, htarget,
      List.getElem?_eq_getElem hltTarget]
  · have hcounterpart := hactual.get hlt hltTarget
    have hfold := haligned.faithful .table _ _ _ _ hcounterpart ⟨s, t, hst, rfl, rfl⟩
    exact Name.same_iff.2 (hfold.1 (Name.same_iff.1 hsame)).symm

end BindingGroup

namespace Rule

variable {rule : Rule} {config : Configuration.Rule} {dataSources : List String}
variable {first second : Table} {predicates : List Predicate} {R : String → String → Prop}

theorem findTable?_of_member (hbuild : build Catalog.builtIn config dataSources = .ok rule)
    {group : BindingGroup} (hgroup : group ∈ rule.bindingGroups) {name : String}
    (hfirst : group.find? name = some first) :
    first ∈ rule.tables ∧ rule.findTable? name = some first := by
  have hrule := build_wellFormed hbuild
  have hmem := hrule.members_configured group hgroup first (List.mem_of_find?_eq_some hfirst)
  have hname := List.find?_some hfirst
  exact ⟨hmem, hrule.findTable?_eq_some hmem hname⟩

/-- The predicates that concern a level of one table are those of the other, readdressed. -/
theorem predicatesFor_readdress {level : Level}
    (h : Strategy.Corresponds R (first.strategyAt rule.defaults level)
      (second.strategyAt rule.defaults level)) {source target : String}
    (haddressed : ∀ p ∈ predicates, Name.same p.table source) (hints others : Hints) :
    rule.predicatesFor second target (predicates.map (·.readdress target)) others level =
      (rule.predicatesFor first source predicates hints level).map (·.readdress target) := by
  rw [predicatesFor_of_noHint h.noHint.1, predicatesFor_of_noHint h.noHint.2, List.filter_map]
  congr 1
  apply List.filter_congr
  intro p hp
  have htarget : Name.same target target := Name.same_iff.2 rfl
  simp only [Function.comp_apply, Predicate.table_readdress, Predicate.column_readdress, htarget,
    haddressed p hp, h.isShardingColumn_eq]

theorem narrow_agree {level : Level}
    (h : Strategy.Corresponds R (first.strategyAt rule.defaults level)
      (second.strategyAt rule.defaults level)) (hR : Faithful R)
    (hnames : List.Forall₂ R (first.names level) (second.names level)) {source : String}
    (haddressed : ∀ p ∈ predicates, Name.same p.table source) (target : String)
    (hints others : Hints) :
    Agree (HeldAlike R)
      (first.narrow rule.defaults level (rule.predicatesFor first source predicates hints level))
      (second.narrow rule.defaults level (rule.predicatesFor second target
        (predicates.map (·.readdress target)) others level)) := by
  rw [Table.narrow_eq, Table.narrow_eq, predicatesFor_readdress h haddressed hints others]
  exact h.resolve_agree hR hnames target _

/-- Bound tables with aligned nodes, the same database strategy and table strategies that place
alike are routed alike, up to translation. -/
theorem route_colocated (hbuild : build Catalog.builtIn config dataSources = .ok rule)
    {group : BindingGroup} (hgroup : group ∈ rule.bindingGroups) {source target : String}
    (hsource : group.find? source = some first) (htarget : group.find? target = some second)
    (haligned : first.Aligned second)
    (hdatabase : Strategy.SameConfiguration (first.strategyAt rule.defaults .database)
      (second.strategyAt rule.defaults .database))
    (hnoHint : (first.strategyAt rule.defaults .database).isHint = false)
    (htable : Strategy.PlacesAlike (first.strategyAt rule.defaults .table)
      (second.strategyAt rule.defaults .table))
    (haddressed : ∀ p ∈ predicates, Name.same p.table source) (hints others : Hints) :
    Agree (List.Forall₂ (group.Translates source target)) (rule.route source predicates hints)
      (rule.route target (predicates.map (·.readdress target)) others) := by
  obtain ⟨hfirst, hfindFirst⟩ := findTable?_of_member hbuild hgroup hsource
  obtain ⟨hsecond, hfindSecond⟩ := findTable?_of_member hbuild hgroup htarget
  have hbuiltIn (level : Level) := builtIn_strategyAt hbuild hfirst level
  have hbuiltIn' (level : Level) := builtIn_strategyAt hbuild hsecond level
  have hwellFormed := (build_wellFormed hbuild).tables_wellFormed
  have hcorresponds (level : Level) : Strategy.Corresponds (first.Counterpart second level)
      (first.strategyAt rule.defaults level) (second.strategyAt rule.defaults level) := by
    cases level with
    | database =>
      rw [← hdatabase.eq (hbuiltIn .database) (hbuiltIn' .database)]
      exact (hbuiltIn .database).corresponds_self hnoHint
    | table =>
      exact htable.corresponds (hbuiltIn .table) (hbuiltIn' .table) (haligned.faithful .table)
  rw [route_of_findTable? hfindFirst, route_of_findTable? hfindSecond]
  have hlevels (level : Level) := narrow_agree (hcorresponds level) (haligned.faithful level)
    (haligned.forall₂_names level) haddressed target hints others
  have hagree := haligned.resolve_agree (hwellFormed first hfirst).not_broadcast
    (hwellFormed second hsecond).not_broadcast hlevels
  apply Agree.mono _ hagree
  intro nodes images hnodes
  apply hnodes.imp
  intro s t hst
  exact BindingGroup.translates_of_beside hsource htarget haligned hst

theorem aligned_shop : orders.Aligned items := by
  constructor
  · have hitself (name : String) : Name.same name name := Name.same_iff.2 rfl
    exact .cons (hitself _) (.cons (hitself _) (.cons (hitself _) (.cons (hitself _) .nil)))
  · simp only [Name.same_eq]
    decide

theorem route_colocated_shop :
    shop.route "orders" [.list "orders" "user" [.int 3]] .empty = .ok [⟨"b", "o0"⟩, ⟨"b", "o1"⟩] ∧
      shop.route "items" [.list "items" "user" [.int 3]] .empty =
        .ok [⟨"b", "i0"⟩, ⟨"b", "i1"⟩] ∧
      List.Forall₂ (BindingGroup.Translates ⟨[orders, items]⟩ "orders" "items")
        [⟨"b", "o0"⟩, ⟨"b", "o1"⟩] [⟨"b", "i0"⟩, ⟨"b", "i1"⟩] := by
  have hgroup : ⟨[orders, items]⟩ ∈ shop.bindingGroups := List.mem_singleton_self _
  have horders : BindingGroup.find? ⟨[orders, items]⟩ "orders" = some orders :=
    List.find?_cons_of_pos (Name.same_iff.2 rfl)
  have hunlike : ¬Name.same orders.name "items" := by
    rw [Name.same_eq]
    decide
  have hitself : Name.same items.name "items" := Name.same_iff.2 rfl
  have hitems : BindingGroup.find? ⟨[orders, items]⟩ "items" = some items := by
    simp [BindingGroup.find?, hunlike, hitself]
  have haddressed : ∀ p ∈ [Predicate.list "orders" "user" [.int 3]],
      Name.same p.table "orders" := by
    simp [Predicate.table, Name.same_iff]
  have hplaces : Strategy.PlacesAlike (.standard "id" (Algorithm.modulo halves))
      (.standard "id" (Algorithm.modulo halves)) :=
    .standard (Name.same_iff.2 rfl) (by decide) rfl rfl
  have hagree : Agree (List.Forall₂ (BindingGroup.Translates ⟨[orders, items]⟩ "orders" "items"))
      (shop.route "orders" [.list "orders" "user" [.int 3]] .empty)
      (shop.route "items" [.list "items" "user" [.int 3]] .empty) :=
    route_colocated build_shop hgroup horders hitems aligned_shop (.standard "user" rfl rfl) rfl
      hplaces haddressed .empty .empty
  have hnodes : shop.route "orders" [.list "orders" "user" [.int 3]] .empty =
      .ok [⟨"b", "o0"⟩, ⟨"b", "o1"⟩] := by
    rw [route_eq_found findTable?_shop rfl]
    exact eq_ok_of_toOption (by decide +kernel)
  have himages : shop.route "items" [.list "items" "user" [.int 3]] .empty =
      .ok [⟨"b", "i0"⟩, ⟨"b", "i1"⟩] := by
    have hfound : shop.findTable? "items" = some items := hitems
    rw [route_eq_found hfound rfl]
    exact eq_ok_of_toOption (by decide +kernel)
  refine ⟨hnodes, himages, ?_⟩
  rw [hnodes, himages] at hagree
  exact hagree

end Rule

end Sharding
