import Sharding.Proofs.Rule.Restatement
/-!
# Hints are ordered sets

At each level a table has the distinct values that were given to it, in the order in which they came
first (`values_ofList`). A route takes them as a set: given in another order, or more than once,
they lead to the same nodes, or to a fault of the same kind.
-/

namespace Sharding

open Outcome

namespace Hint

/-- The hint is for a table, under any spelling of its name, at a level. -/
def isFor (level : Level) (name : String) (hint : Hint) : Bool :=
  hint.level == level && Name.same hint.table name

def folded (hint : Hint) : Hint :=
  { hint with table := Name.fold hint.table }

end Hint

namespace Hints

variable {hints : Hints} {given others : List Hint} {level : Level} {name : String}

/-- The values that are given to a table at a level, as often as they are given. -/
def valuesGiven (given : List Hint) (level : Level) (name : String) : List Value :=
  (given.filter (·.isFor level name)).map (·.value)

theorem ofList_concat (given : List Hint) (hint : Hint) :
    ofList (given ++ [hint]) = (ofList given).add hint.level hint.table hint.value := by
  simp [ofList]

theorem mem_values {v : Value} :
    v ∈ hints.values level name ↔ ⟨level, Name.fold name, v⟩ ∈ hints.given := by
  simp only [values, List.mem_map, List.mem_filter, Bool.and_eq_true, beq_iff_eq]
  constructor
  · rintro ⟨hint, ⟨hmem, rfl, htable⟩, rfl⟩
    rwa [← htable]
  · intro hmem
    exact ⟨_, ⟨hmem, rfl, rfl⟩, rfl⟩

theorem values_add_of_isFor {hint : Hint} (h : hint.isFor level name) :
    (hints.add hint.level hint.table hint.value).values level name =
      if hint.value ∈ hints.values level name then hints.values level name
      else hints.values level name ++ [hint.value] := by
  obtain ⟨hlevel, htable⟩ := Bool.and_eq_true_iff.1 h
  have hlevel : hint.level = level := by simpa using hlevel
  simp only [add, hlevel, Name.same_iff.1 htable, List.contains_iff_mem, ← mem_values]
  split
  · rfl
  · simp [values, List.filter_append]

theorem values_add_of_not_isFor {hint : Hint} (h : hint.isFor level name = false) :
    (hints.add hint.level hint.table hint.value).values level name = hints.values level name := by
  have hother : (hint.level == level && Name.fold hint.table == Name.fold name) = false := h
  simp only [add]
  split
  · rfl
  · simp [values, List.filter_append, hother]

/-- By induction over the hints, from the first given one to the last. -/
theorem values_ofList (given : List Hint) (level : Level) (name : String) :
    (ofList given).values level name = (valuesGiven given level name).eraseDups := by
  induction given using List.reverseRecOn with
  | nil => rfl
  | append_singleton given hint ih =>
    rw [ofList_concat, valuesGiven, List.filter_append, List.map_append, ← valuesGiven]
    cases h : hint.isFor level name with
    | true =>
      rw [values_add_of_isFor h, ih, List.filter_singleton, h, cond_true, List.map_singleton,
        eraseDups_concat]
      simp only [List.mem_eraseDups]
    | false =>
      rw [values_add_of_not_isFor h, ih, List.filter_singleton, h, cond_false, List.map_nil,
        List.append_nil]

/-- A table has its values as one predicate, or no predicate if there are none. -/
theorem predicates_ofList (given : List Hint) (level : Level) (name : String) :
    (ofList given).predicates level name =
      if valuesGiven given level name = [] then []
      else [.hint name (valuesGiven given level name).eraseDups] := by
  have hnone : (valuesGiven given level name).eraseDups = [] ↔ valuesGiven given level name = [] := by
    simp only [List.eq_nil_iff_forall_not_mem, List.mem_eraseDups]
  unfold predicates
  rw [values_ofList]
  split
  · next h => rw [if_pos (hnone.1 h)]
  · next h => rw [if_neg (h ∘ hnone.2), Predicate.hinted, eraseDups_eraseDups]

theorem mem_valuesGiven {v : Value} :
    v ∈ valuesGiven given level name ↔ ⟨level, Name.fold name, v⟩ ∈ given.map Hint.folded := by
  simp only [valuesGiven, List.mem_map, List.mem_filter, Hint.isFor, Bool.and_eq_true, beq_iff_eq,
    Name.same_iff, Hint.folded, Hint.mk.injEq, and_assoc]

/-- Hints that are the same set, up to the spelling of tables, give the same sets of values. -/
theorem sameMembers_values_of_folded
    (h : SameMembers (given.map Hint.folded) (others.map Hint.folded)) (level : Level)
    (name : String) :
    SameMembers ((ofList given).values level name) ((ofList others).values level name) := by
  intro v
  rw [values_ofList, values_ofList, List.mem_eraseDups, List.mem_eraseDups, mem_valuesGiven,
    mem_valuesGiven, h]

end Hints

namespace Rule

variable {rule : Rule} {table : Table} {name : String} {hints others : Hints}

theorem saidOnce_predicates (hints : Hints) (level : Level) (name : String) :
    SaidOnce (hints.predicates level name) := by
  intro p hp q _ column habout _
  rw [Hints.isAbout_of_mem_predicates hp] at habout
  cases habout

/-- What a level leaves depends on the values of its hints as a set. -/
theorem narrow_of_sameMembers {level : Level}
    (hstrategy : (table.strategyAt rule.defaults level).BuiltIn)
    (h : SameMembers (hints.values level name) (others.values level name))
    (query : List Predicate) :
    Agree Algorithm.SameNames
      (table.narrow rule.defaults level (rule.predicatesFor table name query hints level))
      (table.narrow rule.defaults level (rule.predicatesFor table name query others level)) := by
  rw [Table.narrow_eq, Table.narrow_eq]
  cases hhint : (table.strategyAt rule.defaults level).isHint with
  | true =>
    rw [predicatesFor_of_hint hhint, predicatesFor_of_hint hhint]
    exact hstrategy.resolve_restated _ (Hints.sayTheSame_predicates (Name.same_iff.2 rfl) h)
      (saidOnce_predicates hints level name)
  | false =>
    rw [predicatesFor_of_noHint hhint, predicatesFor_of_noHint hhint]
    exact Agree.refl (fun _ _ => Iff.rfl) _

theorem route_of_sameMembers {config : Configuration.Rule} {dataSources : List String}
    (hbuild : build Catalog.builtIn config dataSources = .ok rule)
    (h : ∀ level, SameMembers (hints.values level name) (others.values level name))
    (query : List Predicate) :
    Agree Eq (rule.route name query hints) (rule.route name query others) := by
  apply (Agree.refl (fun _ => rfl) (rule.table name)).bind_of_ok
  rintro table _ htable rfl
  apply Table.resolve_restated
  intro hnarrowed level
  have hmem := mem_tables_of_table htable hnarrowed
  exact narrow_of_sameMembers (builtIn_strategyAt hbuild hmem level) (h level) query

/-- Hints given in turn are an ordered set for each table and level, whatever its spelling, in which
an integer and its numeral are two values. A route takes it as a set. -/
theorem hints_are_sets {config : Configuration.Rule} {dataSources : List String}
    (hbuild : build Catalog.builtIn config dataSources = .ok rule) (given : List Hint) :
    (∀ level name,
      (Hints.ofList given).values level name = (Hints.valuesGiven given level name).eraseDups ∧
      (Hints.ofList given).predicates level name =
        if Hints.valuesGiven given level name = [] then []
        else [.hint name (Hints.valuesGiven given level name).eraseDups]) ∧
    (∀ level name n,
      (Hints.ofList [⟨level, name, .int n⟩, ⟨level, name, .text (Text.Numeral.print n)⟩]).values
        level name = [.int n, .text (Text.Numeral.print n)]) ∧
    ∀ others, SameMembers (given.map Hint.folded) (others.map Hint.folded) → ∀ name query,
      Agree Eq (rule.route name query (.ofList given)) (rule.route name query (.ofList others)) := by
  refine ⟨fun level name => ⟨Hints.values_ofList .., Hints.predicates_ofList ..⟩, ?_, ?_⟩
  · intro level name n
    have hname : Name.same name name := Name.same_iff.2 rfl
    simp [Hints.values_ofList, Hints.valuesGiven, Hint.isFor, hname, List.eraseDups_cons]
  · intro others hothers name query
    exact route_of_sameMembers hbuild
      (fun level => Hints.sameMembers_values_of_folded hothers level name) query

/-! ## A shop with hints for its data sources -/

theorem build_withDatabaseStrategy {catalog : Catalog} {config : Configuration.Rule}
    {dataSources : List String} {given : Option Configuration.Strategy}
    {strategy : Option Strategy} (hstrategy : given.mapM (Strategy.build catalog) = .ok strategy)
    (h : build catalog config dataSources = .ok rule) :
    build catalog { config with databaseStrategy := given } dataSources =
      .ok { rule with defaults := { rule.defaults with databaseStrategy := strategy } } := by
  obtain ⟨_, hdataSources, h⟩ := bind_eq_ok.1 h
  obtain ⟨_, hdefaults, h⟩ := bind_eq_ok.1 h
  obtain ⟨_, htables, h⟩ := bind_eq_ok.1 h
  obtain ⟨_, hgroups, h⟩ := bind_eq_ok.1 h
  obtain ⟨_, _, hdefaults⟩ := bind_eq_ok.1 hdefaults
  obtain ⟨tableStrategy, htable, hdefaults⟩ := bind_eq_ok.1 hdefaults
  obtain ⟨⟨column, generator⟩, hkeys, hdefaults⟩ := bind_eq_ok.1 hdefaults
  cases hdefaults
  cases h
  have hchanged : buildDefaults catalog { config with databaseStrategy := given } =
      .ok ⟨strategy, tableStrategy, column, some generator⟩ :=
    bind_eq_ok.2 ⟨_, hstrategy, bind_eq_ok.2 ⟨_, htable, bind_eq_ok.2 ⟨_, hkeys, rfl⟩⟩⟩
  apply bind_eq_ok.2
  refine ⟨_, hdataSources, bind_eq_ok.2 ⟨_, hchanged, ?_⟩⟩
  exact bind_eq_ok.2 ⟨_, htables, bind_eq_ok.2 ⟨_, hgroups, rfl⟩⟩

def hintedShop : Rule :=
  { shop with
    defaults := { shop.defaults with databaseStrategy := some (.hint (Algorithm.hintInline .empty)) } }

theorem build_hintedShop :
    build Catalog.builtIn
        { shopConfiguration with databaseStrategy := some (.hint (some (.ofType "HINT_INLINE"))) }
        ["a", "b"] = .ok hintedShop := by
  have hstrategy : (some (.hint (some (.ofType "HINT_INLINE"))) :
      Option Configuration.Strategy).mapM (Strategy.build Catalog.builtIn) =
        .ok (some (.hint (Algorithm.hintInline .empty))) := by
    have hmake := Catalog.make_hintInline (.ofType "HINT_INLINE")
      (Catalog.toUpper_eq_iff.2 (by decide))
    have hcreate : Catalog.builtIn.createHint (.ofType "HINT_INLINE") =
        .ok (Algorithm.hintInline .empty) := bind_eq_ok.2 ⟨_, hmake, rfl⟩
    exact map_eq_ok.2 ⟨_, bind_eq_ok.2 ⟨_, rfl, bind_eq_ok.2 ⟨_, hcreate, rfl⟩⟩, rfl⟩
  exact build_withDatabaseStrategy hstrategy build_shop

def shopPlaces : List Hint :=
  [⟨.database, "orders", .text "b"⟩, ⟨.table, "orders", .int 1⟩]

/-- The same hints in another order, and one of them twice. -/
def shopPlacesAgain : List Hint :=
  [⟨.table, "orders", .int 1⟩, ⟨.database, "ORDERS", .text "b"⟩, ⟨.database, "orders", .text "b"⟩]

theorem hints_are_sets_shop :
    build Catalog.builtIn
        { shopConfiguration with databaseStrategy := some (.hint (some (.ofType "HINT_INLINE"))) }
        ["a", "b"] = .ok hintedShop ∧
      hintedShop.route "orders" [] (.ofList shopPlaces) = .ok [⟨"b", "o0"⟩, ⟨"b", "o1"⟩] ∧
      hintedShop.route "orders" [] (.ofList shopPlacesAgain) = .ok [⟨"b", "o0"⟩, ⟨"b", "o1"⟩] := by
  have hroute : hintedShop.route "orders" [] (.ofList shopPlaces) =
      .ok [⟨"b", "o0"⟩, ⟨"b", "o1"⟩] := by
    have htable : hintedShop.findTable? "orders" = some orders := findTable?_shop
    have hpredicates : hintedShop.predicatesFor orders "orders" [] (.ofList shopPlaces) .database =
        [.hint "orders" [.text "b"]] := by
      decide +kernel
    have hfound : (Strategy.hint (Algorithm.hintInline .empty)).targets? (orders.names .database)
        [.hint "orders" [.text "b"]] = .ok (some ["b"]) := by
      rw [Strategy.targets?, Strategy.gatherHints]
      refine map_eq_ok.2 ⟨_, Algorithm.hintInline_empty _ _, ?_⟩
      decide +kernel
    rw [route_eq_found htable rfl, hpredicates]
    refine bind_eq_ok.2 ⟨_, hfound, eq_ok_of_toOption (by decide +kernel)⟩
  have hfold : Name.fold "ORDERS" = Name.fold "orders" :=
    Name.same_iff.1 ((Name.same_eq _ _).trans rfl)
  have hplaces : SameMembers (shopPlaces.map Hint.folded) (shopPlacesAgain.map Hint.folded) := by
    intro hint
    simp only [shopPlaces, shopPlacesAgain, List.map_cons, List.map_nil, Hint.folded, hfold,
      List.mem_cons, List.not_mem_nil, or_false, or_self]
    exact or_comm
  have hsame := (hints_are_sets build_hintedShop shopPlaces).2.2 _ hplaces "orders" []
  exact ⟨build_hintedShop, hroute, hsame.eq_ok hroute⟩

end Rule

end Sharding
