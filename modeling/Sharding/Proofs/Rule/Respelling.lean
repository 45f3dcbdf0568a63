import Sharding.Proofs.Respelling
import Sharding.Proofs.Rule.Restatement
/-!
# Integers and their texts have the same route

A table whose strategies place numbers, or do not narrow, is routed alike whether an integer is
given as it is or as its decimal text.
-/

namespace Sharding.Rule

open Outcome Algorithm

variable {rule : Rule} {table : Table} {query respelled : List Predicate}

theorem predicatesFor_respelled {level : Level}
    (hnoHint : (table.strategyAt rule.defaults level).isHint = false)
    (h : List.Forall₂ Predicate.Respells query respelled) (name : String) (hints : Hints) :
    List.Forall₂ Predicate.Respells (rule.predicatesFor table name query hints level)
      (rule.predicatesFor table name respelled hints level) := by
  rw [predicatesFor_of_noHint hnoHint, predicatesFor_of_noHint hnoHint]
  apply List.rel_filter _ h
  intro p q hpq
  simp only [hpq.table_eq, hpq.column_eq]

/-- Integers and their decimal texts have the same route: the same nodes or a fault of one kind. Any
of the values in lists and of the bounds of ranges may be in either form, and a list may hold one
number in both. -/
theorem route_respelled {config : Configuration.Rule} {dataSources : List String}
    (hbuild : build Catalog.builtIn config dataSources = .ok rule) {name : String}
    (hplaces : ∀ table, rule.findTable? name = some table →
      ∀ level, (table.strategyAt rule.defaults level).PlacesNumbers)
    (hquery : List.Forall₂ Predicate.Respells query respelled) (hints : Hints) :
    Agree Eq (rule.route name query hints) (rule.route name respelled hints) := by
  cases htable : rule.findTable? name with
  | none =>
    rw [route_of_findTable?_eq_none htable query respelled]
    exact Agree.refl (fun _ => rfl) _
  | some table =>
    have hmem : table ∈ rule.tables := List.mem_of_find?_eq_some htable
    rw [route_of_findTable? htable, route_of_findTable? htable]
    apply Table.resolve_restated
    intro _ level
    have hlevel := hplaces table htable level
    rw [Table.narrow_eq, Table.narrow_eq]
    exact (builtIn_strategyAt hbuild hmem level).resolve_respelled hlevel _
      (predicatesFor_respelled hlevel.noHint hquery name hints)

/-! ## Numbers of the shop as texts -/

def shopNumbers : List Predicate :=
  [.oneOf "orders" "user" [.int 1, .text "3", .text "1"],
    .range "orders" "id" (.closed (.int (-2)) (.int 5))]

def shopNumerals : List Predicate :=
  [.oneOf "orders" "user" [.text "1", .int 3, .text "1"],
    .range "orders" "id" (.closed (.text "-2") (.int 5))]

theorem route_respelled_shop :
    build Catalog.builtIn shopConfiguration ["a", "b"] = .ok shop ∧
      shop.route "orders" shopNumbers .empty = .ok [⟨"b", "o0"⟩, ⟨"b", "o1"⟩] ∧
      shop.route "orders" shopNumerals .empty = .ok [⟨"b", "o0"⟩, ⟨"b", "o1"⟩] := by
  have hroute : shop.route "orders" shopNumbers .empty =
      .ok [⟨"b", "o0"⟩, ⟨"b", "o1"⟩] := by
    rw [route_eq_found findTable?_shop rfl]
    exact eq_ok_of_toOption (by decide +kernel)
  have hone : Text.Numeral.print 1 = "1" := by decide
  have hthree : Text.Numeral.print 3 = "3" := by decide
  have hminus : Text.Numeral.print (-2) = "-2" := by decide
  have hplaces (table : Table) (htable : shop.findTable? "orders" = some table) (level : Level) :
      (table.strategyAt shop.defaults level).PlacesNumbers := by
    rw [findTable?_shop] at htable
    cases htable
    cases level with
    | database => exact .standard "user" (by decide)
    | table => exact .standard "id" (by decide)
  have hquery : List.Forall₂ Predicate.Respells shopNumbers shopNumerals := by
    refine .cons (.oneOf ?_) (.cons (.range ⟨.included ?_, .included (.same _)⟩) .nil)
    · exact .cons (hone ▸ .written 1) (.cons (hthree ▸ .read 3) (.cons (.same _) .nil))
    · exact hminus ▸ .written (-2)
  have hsame := route_respelled build_shop hplaces hquery .empty
  exact ⟨build_shop, hroute, hsame.eq_ok hroute⟩

end Sharding.Rule
