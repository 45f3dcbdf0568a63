import Sharding.Proofs.Rule.Coverage
import Sharding.Proofs.Strategy.Faults
/-!
# How routes fail

What could be wrong with the configuration of a table that places numbers was found when its rule
was built. A route of it fails for values that are no numbers only. A broadcast table is always
routed, to each data source once, and a table that the rule does not know never is.
-/

namespace Sharding.Rule

open Outcome

variable {rule : Rule} {config : Configuration.Rule} {dataSources : List String}
variable {table : Table} {name : String} {predicates : List Predicate} {hints : Hints}

theorem kind_of_route (hbuild : build Catalog.builtIn config dataSources = .ok rule)
    (htable : rule.findTable? name = some table)
    (hplaces : ∀ level, (table.strategyAt rule.defaults level).PlacesNumbers) {fault : Fault}
    (h : rule.route name predicates hints = .error fault) : fault.kind = .value := by
  have hmem : table ∈ rule.tables := List.mem_of_find?_eq_some htable
  have hnarrowed := ((build_wellFormed hbuild).tables_wellFormed table hmem).not_broadcast
  rw [route_of_findTable? htable] at h
  obtain ⟨level, hlevel⟩ := Table.resolve_eq_error hnarrowed h
  rw [Table.narrow_eq] at hlevel
  exact (builtIn_strategyAt hbuild hmem level).kind_of_resolve (hplaces level) hlevel

theorem exists_route_of_isNumeric (hbuild : build Catalog.builtIn config dataSources = .ok rule)
    (htable : rule.findTable? name = some table)
    (hplaces : ∀ level, (table.strategyAt rule.defaults level).PlacesNumbers)
    (hnumeric : ∀ p ∈ predicates, Name.same p.table name → p.IsNumeric) (hints : Hints) :
    ∃ nodes, rule.route name predicates hints = .ok nodes := by
  have hmem : table ∈ rule.tables := List.mem_of_find?_eq_some htable
  have hwellFormed := (build_wellFormed hbuild).tables_wellFormed table hmem
  rw [route_of_findTable? htable]
  apply (Table.exists_resolve_iff hwellFormed.not_broadcast).2
  intro level
  have hne := Table.names_ne_nil hwellFormed.nodes_ne_nil level
  rw [Table.narrow_eq]
  apply (builtIn_strategyAt hbuild hmem level).exists_resolve (hplaces level) hne
  intro p hp
  obtain ⟨hp, hsame, _⟩ := (mem_predicatesFor (hplaces level).noHint).1 hp
  exact hnumeric p hp hsame

/-- A broadcast table has one node in each data source, whatever the defaults of the rule are. -/
theorem route_of_isBroadcast (htable : rule.findTable? name = none)
    (hbroadcast : rule.isBroadcast name) (predicates : List Predicate) (hints : Hints) :
    ∃ nodes, rule.route name predicates hints = .ok nodes ∧
      nodes.map (·.dataSource) = rule.dataSources := by
  have hfound : rule.table name = .ok (.ofBroadcast name rule.dataSources) := by
    simp only [Rule.table, htable, hbroadcast, if_true]
  refine ⟨(Table.ofBroadcast name rule.dataSources).nodes, ?_, ?_⟩
  · rw [route, hfound]
    rfl
  · simp [Table.ofBroadcast, Table.placedNodes, Function.comp_def]

theorem route_of_unknown (htable : rule.findTable? name = none)
    (hbroadcast : rule.isBroadcast name = false) (predicates : List Predicate) (hints : Hints) :
    rule.route name predicates hints = .error (.configuration (.noTable name)) := by
  have hmissing : rule.table name = .error (.configuration (.noTable name)) := by
    simp only [Rule.table, htable, hbroadcast, Bool.false_eq_true, if_false]
  rw [route, hmissing]
  rfl

/-- What comes of a route. A table whose strategies place numbers or do not narrow is routed, or a
value was none that it could place, and it is routed for sure if all values and bounds given for it
are numbers. A table that is broadcast and not configured has one node in each data source. Any
other name is an error of configuration. -/
theorem route_outcome (hbuild : build Catalog.builtIn config dataSources = .ok rule)
    (name : String) (predicates : List Predicate) (hints : Hints) :
    (∀ table, rule.findTable? name = some table →
        (∀ level, (table.strategyAt rule.defaults level).PlacesNumbers) →
          (∀ fault, rule.route name predicates hints = .error fault → fault.kind = .value) ∧
            ((∀ p ∈ predicates, Name.same p.table name → p.IsNumeric) →
              ∃ nodes, rule.route name predicates hints = .ok nodes)) ∧
      (rule.findTable? name = none → rule.isBroadcast name →
        ∃ nodes, rule.route name predicates hints = .ok nodes ∧
          nodes.map (·.dataSource) = rule.dataSources) ∧
      (rule.findTable? name = none → rule.isBroadcast name = false →
        ∃ fault, rule.route name predicates hints = .error fault ∧
          fault.kind = .configuration) := by
  refine ⟨?_, ?_, ?_⟩
  · intro table htable hplaces
    refine ⟨fun fault hfault => kind_of_route hbuild htable hplaces hfault, ?_⟩
    intro hnumeric
    exact exists_route_of_isNumeric hbuild htable hplaces hnumeric hints
  · intro htable hbroadcast
    exact route_of_isBroadcast htable hbroadcast predicates hints
  · intro htable hbroadcast
    exact ⟨_, route_of_unknown htable hbroadcast predicates hints, rfl⟩

/-! ## A shop with a broadcast table -/

theorem build_withBroadcastTables {catalog : Catalog} (names : List String)
    (h : build catalog config dataSources = .ok rule) :
    build catalog { config with broadcastTables := names } dataSources =
      .ok { rule with broadcastTables := readBroadcastTables names } := by
  obtain ⟨_, hdataSources, h⟩ := bind_eq_ok.1 h
  obtain ⟨_, hdefaults, h⟩ := bind_eq_ok.1 h
  obtain ⟨_, htables, h⟩ := bind_eq_ok.1 h
  obtain ⟨_, hgroups, h⟩ := bind_eq_ok.1 h
  cases h
  apply bind_eq_ok.2
  refine ⟨_, hdataSources, bind_eq_ok.2 ⟨_, hdefaults, ?_⟩⟩
  exact bind_eq_ok.2 ⟨_, htables, bind_eq_ok.2 ⟨_, hgroups, rfl⟩⟩

def shopWithRegions : Rule :=
  { shop with broadcastTables := ["regions"] }

theorem build_shopWithRegions :
    build Catalog.builtIn { shopConfiguration with broadcastTables := ["regions"] } ["a", "b"] =
      .ok shopWithRegions := by
  rw [build_withBroadcastTables ["regions"] build_shop, readBroadcastTables_regions]
  rfl

theorem route_outcome_shop :
    build Catalog.builtIn { shopConfiguration with broadcastTables := ["regions"] } ["a", "b"] =
        .ok shopWithRegions ∧
      (∃ fault, shopWithRegions.route "orders" [.list "orders" "user" [.text "x"]] .empty =
        .error fault ∧ fault.kind = .value) ∧
      (∃ nodes, shopWithRegions.route "orders" shopPoint .empty = .ok nodes) ∧
      (∃ nodes, shopWithRegions.route "REGIONS" [.list "regions" "id" [.text "x"]] .empty =
        .ok nodes ∧ nodes.map (·.dataSource) = ["a", "b"]) ∧
      ∃ fault, shopWithRegions.route "parcels" [] .empty = .error fault ∧
        fault.kind = .configuration := by
  have htable : shopWithRegions.findTable? "orders" = some orders := findTable?_shop
  have hplaces (level : Level) :
      (orders.strategyAt shopWithRegions.defaults level).PlacesNumbers := by
    cases level with
    | database => exact .standard "user" (by decide)
    | table => exact .standard "id" (by decide)
  have hregions : shopWithRegions.findTable? "REGIONS" = none := by
    simp only [findTable?, List.find?_eq_none, Name.same_eq]
    decide
  have hparcels : shopWithRegions.findTable? "parcels" = none := by
    simp only [findTable?, List.find?_eq_none, Name.same_eq]
    decide
  refine ⟨build_shopWithRegions, ?_, ?_, ?_, ?_⟩
  · obtain ⟨hkind, _⟩ := (route_outcome build_shopWithRegions "orders"
      [.list "orders" "user" [.text "x"]] .empty).1 orders htable hplaces
    have hfails : (shopWithRegions.route "orders" [.list "orders" "user" [.text "x"]]
        .empty).toOption = none := Option.isNone_iff_eq_none.1 (by decide +kernel)
    cases hroute : shopWithRegions.route "orders" [.list "orders" "user" [.text "x"]] .empty with
    | ok nodes =>
      rw [hroute] at hfails
      cases hfails
    | error fault => exact ⟨fault, rfl, hkind fault hroute⟩
  · obtain ⟨_, hexists⟩ := (route_outcome build_shopWithRegions "orders" shopPoint .empty).1
      orders htable hplaces
    apply hexists
    intro p hp _
    simp only [shopPoint, List.mem_cons, List.not_mem_nil, or_false] at hp
    rcases hp with rfl | rfl
    · exact List.forall_mem_singleton.2 rfl
    · exact List.forall_mem_singleton.2 rfl
  · have hbroadcast : shopWithRegions.isBroadcast "REGIONS" :=
      Name.isIn_singleton.2 (Name.same_iff.1 ((Name.same_eq _ _).trans rfl))
    exact (route_outcome build_shopWithRegions "REGIONS" _ .empty).2.1 hregions hbroadcast
  · have hunknown : shopWithRegions.isBroadcast "parcels" = false := by
      rw [isBroadcast, shopWithRegions, Bool.eq_false_iff, ne_eq, Name.isIn_singleton,
        ← Name.same_iff, Name.same_eq]
      decide
    exact (route_outcome build_shopWithRegions "parcels" [] .empty).2.2 hparcels hunknown

end Sharding.Rule
