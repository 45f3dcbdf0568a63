import Sharding.Proofs.Rule.Consistency
import Sharding.Proofs.Rule.Decomposition
import Sharding.Proofs.Rule.Resolution
import Sharding.Proofs.Strategy.Restatement
/-!
# Restated statements have the same route

A table is found by any spelling of its name, and its strategies leave the same names for a
restated query. So a route does not depend on the order in which a statement gives its predicates,
values and hints nor on the case of its names, and where it fails it fails for the same kind of
fault.
-/

namespace Sharding

open Outcome Algorithm

/-- The names that are left count only as the names that they are. -/
theorem Table.keep_congr {table : Table} {left others : Level → List String}
    (h : ∀ level, SameNames (left level) (others level)) :
    table.keep left = table.keep others := by
  apply List.filter_congr
  intro node _
  rw [Bool.eq_iff_iff, Bool.and_eq_true, Bool.and_eq_true, h .database, h .table]

theorem Table.resolve_restated {table : Table} {defaults : Defaults}
    {predicates others : Level → List Predicate}
    (hlevels : table.broadcast = false → ∀ level,
      Agree SameNames (table.narrow defaults level (predicates level))
        (table.narrow defaults level (others level))) :
    Agree Eq (table.resolve defaults predicates) (table.resolve defaults others) := by
  cases hbroadcast : table.broadcast with
  | true =>
    rw [resolve, resolve, if_pos hbroadcast, if_pos hbroadcast]
    exact rfl
  | false =>
    rw [resolve_eq_bind hbroadcast, resolve_eq_bind hbroadcast]
    apply (hlevels hbroadcast .database).bind
    intro dataSources same hdataSources
    apply (hlevels hbroadcast .table).bind
    intro tables found htables
    exact Table.keep_congr (Level.forall_iff.2 ⟨hdataSources, htables⟩)

namespace Rule

variable {rule : Rule} {name other : String} {query restated : List Predicate}
variable {given regiven : List Hint}

/-! ## The name of the table -/

theorem findTable?_congr (rule : Rule) (h : Name.same name other) :
    rule.findTable? name = rule.findTable? other := by
  simp only [findTable?, Name.same, Name.same_iff.1 h]

theorem ofBroadcast_congr (h : Name.same name other) (dataSources : List String) :
    Table.ofBroadcast name dataSources = Table.ofBroadcast other dataSources := by
  simp only [Table.ofBroadcast, Text.fold_trim, Name.same_iff.1 h]

theorem table_restated (rule : Rule) (h : Name.same name other) :
    Agree Eq (rule.table name) (rule.table other) := by
  have hbroadcast : rule.isBroadcast name = rule.isBroadcast other :=
    Name.isIn_congr _ (Name.same_iff.1 h)
  simp only [Rule.table, rule.findTable?_congr h, hbroadcast, ofBroadcast_congr h]
  split
  · exact rfl
  · split
    · exact rfl
    · exact rfl

/-! ## What is said of the table -/

theorem sayTheSame_statedOf (hname : Name.same name other) (h : SayTheSame query restated) :
    SayTheSame (statedOf name query) (statedOf other restated) := by
  have htable {p q : Predicate} (hpq : p.Restates q) :
      Name.same p.table name ↔ Name.same q.table other := by
    rw [Name.same_iff, Name.same_iff, hpq.fold_table, Name.same_iff.1 hname]
  constructor
  · intro p hp
    obtain ⟨hp, hnoHint, hsame⟩ := mem_statedOf.1 hp
    obtain ⟨q, hq, hpq⟩ := h.restated p hp
    exact ⟨q, mem_statedOf.2 ⟨hq, hpq.isHint_eq ▸ hnoHint, (htable hpq).1 hsame⟩, hpq⟩
  · intro q hq
    obtain ⟨hq, hnoHint, hsame⟩ := mem_statedOf.1 hq
    obtain ⟨p, hp, hpq⟩ := h.restates q hq
    exact ⟨p, mem_statedOf.2 ⟨hp, hpq.isHint_eq ▸ hnoHint, (htable hpq).2 hsame⟩, hpq⟩

/-- Where no two predicates are about one column of one table, no two that are stated of a table are
about one column. Hints are about none. -/
theorem saidOnce_statedOf (honce : query.Pairwise fun p q => ¬p.Overlaps q) (name : String)
    (hints : Hints) (level : Level) :
    SaidOnce (statedOf name query ++ hints.predicates level name) := by
  have hstated {p : Predicate} {column : String} (habout : p.isAbout column)
      (hp : p ∈ statedOf name query ++ hints.predicates level name) :
      p ∈ query ∧ Name.same p.table name := by
    rcases List.mem_append.1 hp with hp | hp
    · obtain ⟨hp, _, hsame⟩ := mem_statedOf.1 hp
      exact ⟨hp, hsame⟩
    · rw [Hints.isAbout_of_mem_predicates hp] at habout
      cases habout
  intro p hp q hq column hpAbout hqAbout
  obtain ⟨hp, hpTable⟩ := hstated hpAbout hp
  obtain ⟨hq, hqTable⟩ := hstated hqAbout hq
  obtain ⟨hpNoHint, hpColumn⟩ := Predicate.isAbout_iff.1 hpAbout
  obtain ⟨hqNoHint, hqColumn⟩ := Predicate.isAbout_iff.1 hqAbout
  rw [Name.same_iff] at hpTable hqTable hpColumn hqColumn
  have hoverlaps : p.Overlaps q := ⟨hpNoHint, hqNoHint,
    Name.same_iff.2 (hpTable.trans hqTable.symm), Name.same_iff.2 (hpColumn.trans hqColumn.symm)⟩
  exact hoverlaps.eq honce hp hq

/-! ## The route -/

/-- A statement in other words has the same route: the same nodes, in one order and spelling, or a
fault of one kind. Its predicates, values and hints may be in any order, the names of tables and
columns in any case, as long as no two predicates are about one column of one table. -/
theorem route_restated {config : Configuration.Rule} {dataSources : List String}
    (hbuild : build Catalog.builtIn config dataSources = .ok rule)
    (hname : Name.same name other) (honce : query.Pairwise fun p q => ¬p.Overlaps q)
    (hquery : Rearranged Predicate.Restates query restated)
    (hhints : Rearranged Hint.Restates given regiven) :
    Agree Eq (rule.route name query (.ofList given))
      (rule.route other restated (.ofList regiven)) := by
  have hsaid (level : Level) : SayTheSame
      (statedOf name query ++ (Hints.ofList given).predicates level name)
      (statedOf other restated ++ (Hints.ofList regiven).predicates level other) := by
    apply SayTheSame.append
    · exact sayTheSame_statedOf hname hquery.sayTheSame
    · exact Hints.sayTheSame_predicates hname (Hints.sameMembers_values hhints hname level)
  rw [route_eq_resolve, route_eq_resolve]
  apply (rule.table_restated hname).bind_of_ok
  rintro table _ htable rfl
  apply Table.resolve_restated
  intro hnarrowed level
  have hmem := mem_tables_of_table htable hnarrowed
  rw [Table.narrow_eq, Table.narrow_eq]
  exact (builtIn_strategyAt hbuild hmem level).resolve_restated _ (hsaid level)
    (saidOnce_statedOf honce name _ level)

/-! ## Lists of the shop in other words -/

def shopRelisted : List Predicate :=
  [.list "ORDERS" "Id" [.int 3], .list "Orders" "user" [.int 2, .int 1]]

theorem rearranged_shopLists : Rearranged Predicate.Restates shopLists shopRelisted := by
  refine ⟨[.list "orders" "id" [.int 3], .list "orders" "user" [.int 1, .int 2]],
    List.Perm.swap _ _ _, .cons ?_ (.cons ?_ .nil)⟩
  · exact .list ((Name.same_eq _ _).trans rfl)
      ((Name.same_eq _ _).trans rfl) fun _ => Iff.rfl
  · refine .list ((Name.same_eq _ _).trans rfl)
      (Name.same_iff.2 rfl) fun v => ?_
    simp [or_comm]

def shopHints : List Hint :=
  [⟨.table, "orders", .int 1⟩, ⟨.table, "orders", .int 2⟩]

theorem route_restated_shop :
    build Catalog.builtIn shopConfiguration ["a", "b"] = .ok shop ∧
      shop.route "orders" shopLists (.ofList shopHints) = .ok [⟨"a", "o1"⟩, ⟨"b", "o1"⟩] ∧
      shop.route "Orders" shopRelisted (.ofList shopHints.reverse) =
        .ok [⟨"a", "o1"⟩, ⟨"b", "o1"⟩] := by
  have hroute : shop.route "orders" shopLists (.ofList shopHints) =
      .ok [⟨"a", "o1"⟩, ⟨"b", "o1"⟩] := by
    rw [route_eq_found findTable?_shop rfl]
    exact eq_ok_of_toOption (by decide +kernel)
  have honce : shopLists.Pairwise fun p q => ¬p.Overlaps q := by
    have hcolumns : Name.same "user" "id" = false := (Name.same_eq _ _).trans rfl
    refine List.pairwise_pair.2 fun hoverlaps => ?_
    exact Bool.false_ne_true (hcolumns.symm.trans hoverlaps.2.2.2)
  have hhints : Rearranged Hint.Restates shopHints shopHints.reverse :=
    ⟨_, (List.reverse_perm _).symm, List.forall₂_same.2 fun _ _ => ⟨rfl, Name.same_iff.2 rfl, rfl⟩⟩
  have hname : Name.same "orders" "Orders" :=
    (Name.same_eq _ _).trans rfl
  have hsame := route_restated build_shop hname honce rearranged_shopLists hhints
  exact ⟨build_shop, hroute, hsame.eq_ok hroute⟩

end Rule

end Sharding
