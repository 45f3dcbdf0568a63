import Sharding.Proofs.Hints
import Sharding.Proofs.Rule.Consistency
import Sharding.Proofs.Table.Decomposition
/-!
# Routes of lists

A query with lists of values stands for all queries that keep one value of each list, and one hint
where a level goes by hints. It is routed exactly if they all are, and to the nodes of them all.
-/

namespace Sharding

open Outcome

/-- One of the values is kept, if there are any. -/
def KeepsOneOf (values kept : List Value) : Prop :=
  values = [] ∧ kept = [] ∨ ∃ v ∈ values, kept = [v]

theorem exists_keepsOneOf (values : List Value) : ∃ kept, KeepsOneOf values kept := by
  cases values with
  | nil => exact ⟨[], .inl ⟨rfl, rfl⟩⟩
  | cons v rest => exact ⟨[v], .inr ⟨v, List.mem_cons_self, rfl⟩⟩

/-! ## Hints -/

namespace Hints

/-- The predicates that values of a table are at a level. -/
def asPredicates (name : String) : List Value → List Predicate
  | [] => []
  | values => [.hinted name values]

theorem predicates_eq (hints : Hints) (level : Level) (name : String) :
    hints.predicates level name = asPredicates name (hints.values level name) := rfl

theorem asPredicates_of_ne_nil (name : String) {values : List Value} (hne : values ≠ []) :
    asPredicates name values = [.hint name values.eraseDups] := by
  obtain ⟨v, rest, rfl⟩ := List.exists_cons_of_ne_nil hne
  rfl

theorem asPredicates_eq (name : String) (values : List Value) :
    asPredicates name values = [] ∨
      ∃ table own, asPredicates name values = [.hint table own] ∧ own ≠ [] := by
  by_cases hne : values = []
  · subst hne
    exact .inl rfl
  · right
    obtain ⟨v, hv⟩ := List.exists_mem_of_ne_nil values hne
    exact ⟨_, _, asPredicates_of_ne_nil name hne,
      List.ne_nil_of_mem (List.mem_eraseDups.2 hv)⟩

/-- Keeping one of the values is choosing from the predicates that they are. -/
theorem chooses_asPredicates {name : String} {values : List Value} {choice : List Predicate} :
    Chooses (asPredicates name values) choice ↔
      ∃ kept, KeepsOneOf values kept ∧ asPredicates name kept = choice := by
  by_cases hne : values = []
  · subst hne
    simp [asPredicates, KeepsOneOf, eq_comm]
  · have hone (v : Value) : asPredicates name [v] = [.hint name [v]] := by
      simp [asPredicates, Predicate.hinted, List.eraseDups_cons]
    rw [asPredicates_of_ne_nil name hne, chooses_singleton]
    constructor
    · rintro ⟨_, hkept, rfl⟩
      cases hkept with
      | hint hv => exact ⟨_, .inr ⟨_, List.mem_eraseDups.1 hv, rfl⟩, hone _⟩
    · rintro ⟨kept, hkept, rfl⟩
      rcases hkept with ⟨hnil, _⟩ | ⟨v, hv, rfl⟩
      · exact absurd hnil hne
      · exact ⟨_, .hint (List.mem_eraseDups.2 hv), hone v⟩

end Hints

/-! ## Lists -/

section Lists

variable {concerns : Level → Predicate → Bool} {query : List Predicate}

/-- One value is kept of each list that concerns a level; what concerns none stays. -/
def KeepsOneOfEach (concerns : Level → Predicate → Bool) (query choice : List Predicate) : Prop :=
  List.Forall₂ (fun p c => (∃ level, concerns level p) ∧ p.KeepsOne c ∨
    (∀ level, ¬concerns level p) ∧ c = p) query choice

theorem KeepsOneOfEach.chooses {choice : List Predicate}
    (hconcerns : ∀ {p c : Predicate}, p.KeepsOne c → ∀ level, concerns level c = concerns level p)
    (h : KeepsOneOfEach concerns query choice) (level : Level) :
    Chooses (query.filter (concerns level)) (choice.filter (concerns level)) := by
  induction h with
  | nil => exact .nil
  | @cons p c query choice hone _ ih =>
    rcases hone with ⟨_, hkept⟩ | ⟨hnone, rfl⟩
    · have hsame := hconcerns hkept level
      by_cases hp : concerns level p
      · rw [List.filter_cons_of_pos hp, List.filter_cons_of_pos (hsame.trans hp)]
        exact .cons hkept ih
      · rw [List.filter_cons_of_neg hp, List.filter_cons_of_neg (hsame ▸ hp)]
        exact ih
    · rw [List.filter_cons_of_neg (hnone level), List.filter_cons_of_neg (hnone level)]
      exact ih

/-- Choices at all levels are made by one choice when no predicate concerns two of them. -/
theorem exists_keepsOneOfEach
    (hconcerns : ∀ {p c : Predicate}, p.KeepsOne c → ∀ level, concerns level c = concerns level p)
    (hdisjoint : ∀ {p level other}, concerns level p → concerns other p → other = level)
    {choices : Level → List Predicate}
    (hchoices : ChoosesAt (fun level => query.filter (concerns level)) choices) :
    ∃ choice, KeepsOneOfEach concerns query choice ∧
      ∀ level, choice.filter (concerns level) = choices level := by
  induction query generalizing choices with
  | nil =>
    refine ⟨[], .nil, ?_⟩
    intro level
    cases hlevel : choices level with
    | nil => rfl
    | cons c rest =>
      have hnil := hchoices level
      rw [hlevel] at hnil
      cases hnil
  | cons p query ih =>
    by_cases hp : ∃ level, concerns level p
    · obtain ⟨level, hp⟩ := hp
      have hother {other : Level} (hne : other ≠ level) : ¬concerns other p :=
        fun h => hne (hdisjoint hp h)
      have hfirst : Chooses ((p :: query).filter (concerns level)) (choices level) :=
        hchoices level
      rw [List.filter_cons_of_pos hp] at hfirst
      obtain ⟨c, rest, hkept, hrest, hlevel⟩ := List.forall₂_cons_left_iff.1 hfirst
      -- the first value chosen at this level is that of the first predicate
      have hchoices' : ChoosesAt (fun level => query.filter (concerns level))
          (Function.update choices level rest) := by
        intro other
        by_cases hsame : other = level
        · subst hsame
          rw [Function.update_self]
          exact hrest
        · have hlater : Chooses ((p :: query).filter (concerns other)) (choices other) :=
            hchoices other
          rw [List.filter_cons_of_neg (hother hsame)] at hlater
          rw [Function.update_of_ne hsame]
          exact hlater
      obtain ⟨choice, hchoice, hfilter⟩ := ih hchoices'
      refine ⟨c :: choice, .cons (.inl ⟨⟨level, hp⟩, hkept⟩) hchoice, ?_⟩
      intro other
      have hc := hconcerns hkept other
      by_cases hsame : other = level
      · subst hsame
        rw [List.filter_cons_of_pos (hc.trans hp), hfilter, Function.update_self, hlevel]
      · rw [List.filter_cons_of_neg (hc ▸ hother hsame), hfilter, Function.update_of_ne hsame]
    · have hnone (level : Level) : ¬concerns level p := fun h => hp ⟨level, h⟩
      have hchoices' : ChoosesAt (fun level => query.filter (concerns level)) choices := by
        intro level
        have hlevel : Chooses ((p :: query).filter (concerns level)) (choices level) :=
          hchoices level
        rwa [List.filter_cons_of_neg (hnone level)] at hlevel
      obtain ⟨choice, hchoice, hfilter⟩ := ih hchoices'
      refine ⟨p :: choice, .cons (.inr ⟨hnone, rfl⟩) hchoice, ?_⟩
      intro level
      rw [List.filter_cons_of_neg (hnone level), hfilter]

end Lists

namespace Rule

variable {rule : Rule} {table : Table} {name : String} {query choice : List Predicate}
variable {hints own : Hints}

/-- The predicate is addressed to the table and about a column of its strategy at the level. -/
def concerns (rule : Rule) (table : Table) (name : String) (level : Level) (p : Predicate) : Bool :=
  Name.same p.table name && (table.strategyAt rule.defaults level).isShardingColumn p.column

/-- A level of the table goes by hints. -/
def isHinted (rule : Rule) (table : Table) (level : Level) : Bool :=
  (table.strategyAt rule.defaults level).isHint

/-- A query for a table keeps one value of each list that concerns a level of it, and one hint at
each level that goes by hints and has any. -/
structure Selects (rule : Rule) (table : Table) (name : String) (query : List Predicate)
    (hints : Hints) (choice : List Predicate) (own : Hints) : Prop where
  lists : KeepsOneOfEach (rule.concerns table name) query choice
  hinted : ∀ level, rule.isHinted table level →
    KeepsOneOf (hints.values level name) (own.values level name)
  others : ∀ level other, ¬(rule.isHinted table level ∧ Name.same other name) →
    own.values level other = hints.values level other

theorem concerns_eq_of_keepsOne {p c : Predicate} (h : p.KeepsOne c) (level : Level) :
    rule.concerns table name level c = rule.concerns table name level p := by
  rw [concerns, concerns, h.table_eq, h.column_eq]

theorem concerns_of_isHinted {level : Level} (hhint : rule.isHinted table level) (p : Predicate) :
    rule.concerns table name level p = false := by
  unfold isHinted at hhint
  unfold concerns
  cases hstrategy : table.strategyAt rule.defaults level with
  | hint algorithm => exact Bool.and_false _
  | _ =>
    rw [hstrategy] at hhint
    cases hhint

theorem predicatesFor_of_isHinted {level : Level} (hhint : rule.isHinted table level)
    (query : List Predicate) (hints : Hints) :
    rule.predicatesFor table name query hints level =
      Hints.asPredicates name (hints.values level name) := by
  rw [predicatesFor_of_hint hhint, Hints.predicates_eq]

theorem predicatesFor_of_not_isHinted {level : Level} (hnoHint : rule.isHinted table level = false)
    (query : List Predicate) (hints : Hints) :
    rule.predicatesFor table name query hints level =
      query.filter (rule.concerns table name level) :=
  predicatesFor_of_noHint hnoHint name query hints

theorem Selects.choosesAt (h : rule.Selects table name query hints choice own) :
    ChoosesAt (rule.predicatesFor table name query hints)
      (rule.predicatesFor table name choice own) := by
  intro level
  cases hhint : rule.isHinted table level with
  | true =>
    rw [predicatesFor_of_isHinted hhint, predicatesFor_of_isHinted hhint]
    exact Hints.chooses_asPredicates.2 ⟨_, h.hinted level hhint, rfl⟩
  | false =>
    rw [predicatesFor_of_not_isHinted hhint, predicatesFor_of_not_isHinted hhint]
    exact h.lists.chooses concerns_eq_of_keepsOne level

/-- Choices at all levels keep hints at those that go by hints. -/
theorem exists_own {choices : Level → List Predicate}
    (hchoices : ChoosesAt (rule.predicatesFor table name query hints) choices) :
    ∃ own : Hints,
      (∀ level, rule.isHinted table level →
        KeepsOneOf (hints.values level name) (own.values level name) ∧
          Hints.asPredicates name (own.values level name) = choices level) ∧
      ∀ level other, ¬(rule.isHinted table level ∧ Name.same other name) →
        own.values level other = hints.values level other := by
  have hkept : ∀ level, ∃ kept,
      (rule.isHinted table level → KeepsOneOf (hints.values level name) kept ∧
        Hints.asPredicates name kept = choices level) ∧
      (¬rule.isHinted table level → kept = hints.values level name) := by
    intro level
    by_cases hhint : rule.isHinted table level
    · have hlevel := hchoices level
      rw [predicatesFor_of_isHinted hhint] at hlevel
      obtain ⟨kept, hkept⟩ := Hints.chooses_asPredicates.1 hlevel
      exact ⟨kept, fun _ => hkept, fun hnoHint => absurd hhint hnoHint⟩
    · exact ⟨_, fun h => absurd h hhint, fun _ => rfl⟩
  choose kept hkept hsame using hkept
  obtain ⟨own, hown, hrest⟩ := hints.exists_values name kept
  refine ⟨own, ?_, ?_⟩
  · intro level hhint
    rw [hown]
    exact hkept level hhint
  · intro level other hother
    by_cases hname : Name.same other name
    · rw [own.values_congr level hname, hints.values_congr level hname, hown]
      exact hsame level fun hhint => hother ⟨hhint, hname⟩
    · exact hrest level other hname

/-- Choices at all levels are choices from the lists at those that go by columns. -/
theorem exists_listed {choices : Level → List Predicate}
    (hchoices : ChoosesAt (rule.predicatesFor table name query hints) choices) :
    ∃ listed, ChoosesAt (fun level => query.filter (rule.concerns table name level)) listed ∧
      ∀ level, rule.isHinted table level = false → listed level = choices level := by
  refine ⟨fun level => if rule.isHinted table level then [] else choices level, ?_, ?_⟩
  · intro level
    cases hhint : rule.isHinted table level with
    | true =>
      have hnone : query.filter (rule.concerns table name level) = [] :=
        List.filter_eq_nil_iff.2 fun p _ => by simp [concerns_of_isHinted hhint]
      simp only [hnone, hhint, if_true]
      exact .nil
    | false =>
      have hlevel := hchoices level
      rw [predicatesFor_of_not_isHinted hhint] at hlevel
      simpa only [hhint, Bool.false_eq_true, if_false] using hlevel
  · intro level hhint
    simp only [hhint, Bool.false_eq_true, if_false]

/-- Where the levels share no column, choices at both are made by one selection. -/
theorem exists_selects
    (hdisjoint : ∀ {p level other}, rule.concerns table name level p →
      rule.concerns table name other p → other = level)
    {choices : Level → List Predicate}
    (hchoices : ChoosesAt (rule.predicatesFor table name query hints) choices) :
    ∃ choice own, rule.Selects table name query hints choice own ∧
      rule.predicatesFor table name choice own = choices := by
  obtain ⟨listed, hlisted, hsame⟩ := exists_listed hchoices
  obtain ⟨choice, hchoice, hfilter⟩ :=
    exists_keepsOneOfEach concerns_eq_of_keepsOne hdisjoint hlisted
  obtain ⟨own, hown, hothers⟩ := exists_own hchoices
  refine ⟨choice, own, ⟨hchoice, fun level hhint => (hown level hhint).1, hothers⟩, ?_⟩
  funext level
  cases hhint : rule.isHinted table level with
  | true =>
    rw [predicatesFor_of_isHinted hhint]
    exact (hown level hhint).2
  | false =>
    rw [predicatesFor_of_not_isHinted hhint, hfilter]
    exact hsame level hhint

/-! ## Queries of lists -/

/-- What concerns the table are lists of values, at most one for each column. -/
structure ListsOnce (rule : Rule) (table : Table) (name : String) (query : List Predicate) :
    Prop where
  lists : ∀ p ∈ query, ∀ level, rule.concerns table name level p → p.IsList
  once : query.Pairwise fun p q => (∃ level, rule.concerns table name level p) →
    (∃ level, rule.concerns table name level q) → ¬Name.same p.column q.column

theorem ListsOnce.eachOnce (h : rule.ListsOnce table name query) (level : Level) :
    EachOnce (table.strategyAt rule.defaults level).columns
      (query.filter (rule.concerns table name level)) := by
  constructor
  · intro p hp
    obtain ⟨hp, hconcerns⟩ := List.mem_filter.1 hp
    exact h.lists p hp level hconcerns
  · intro p hp
    exact (Bool.and_eq_true_iff.1 (List.mem_filter.1 hp).2).2
  · rw [List.Nodup, List.pairwise_map, List.pairwise_filter]
    refine h.once.imp fun honce hp hq hfold => ?_
    exact honce ⟨level, hp⟩ ⟨level, hq⟩ (Name.same_iff.2 hfold)

theorem ListsOnce.exists_choice (h : rule.ListsOnce table name query) (hints : Hints)
    (level : Level) :
    ∃ choice, Chooses (rule.predicatesFor table name query hints level) choice := by
  cases hhint : rule.isHinted table level with
  | true =>
    rw [predicatesFor_of_isHinted hhint]
    obtain ⟨kept, hkept⟩ := exists_keepsOneOf (hints.values level name)
    exact ⟨_, Hints.chooses_asPredicates.2 ⟨kept, hkept, rfl⟩⟩
  | false =>
    rw [predicatesFor_of_not_isHinted hhint]
    exact (h.eachOnce level).exists_choice

theorem ListsOnce.narrow_decomposes {config : Configuration.Rule} {dataSources : List String}
    (hbuild : build Catalog.builtIn config dataSources = .ok rule) (htable : table ∈ rule.tables)
    (h : rule.ListsOnce table name query) (hints : Hints) (level : Level) :
    Decomposes (table.narrow rule.defaults level) (fun names name => Name.isIn names name)
      (rule.predicatesFor table name query hints level) := by
  have hnarrow : table.narrow rule.defaults level =
      (table.strategyAt rule.defaults level).resolve (table.names level) :=
    funext fun predicates => Table.narrow_eq table rule.defaults level predicates
  have hbuiltIn := builtIn_strategyAt hbuild htable level
  rw [hnarrow]
  apply Strategy.resolve_decomposes
  cases hhint : rule.isHinted table level with
  | true =>
    rw [predicatesFor_of_isHinted hhint]
    exact hbuiltIn.decomposes_of_hint hhint _ (Hints.asPredicates_eq name _)
  | false =>
    rw [predicatesFor_of_not_isHinted hhint]
    exact hbuiltIn.decomposes hhint _ (h.eachOnce level)

theorem concerns_unique
    (hdisjoint : ∀ column, ¬((table.strategyAt rule.defaults .database).isShardingColumn column ∧
      (table.strategyAt rule.defaults .table).isShardingColumn column)) {p : Predicate}
    {level other : Level} (hlevel : rule.concerns table name level p)
    (hother : rule.concerns table name other p) : other = level := by
  have hcolumn := (Bool.and_eq_true_iff.1 hlevel).2
  have hcolumn' := (Bool.and_eq_true_iff.1 hother).2
  cases level with
  | database =>
    cases other with
    | database => rfl
    | table => exact absurd ⟨hcolumn, hcolumn'⟩ (hdisjoint p.column)
  | table =>
    cases other with
    | database => exact absurd ⟨hcolumn', hcolumn⟩ (hdisjoint p.column)
    | table => rfl

/-- A query of lists is routed exactly if all of its selections are. Its nodes are those of its
selections, in the order of the table. -/
theorem route_decomposes {config : Configuration.Rule} {dataSources : List String}
    (hbuild : build Catalog.builtIn config dataSources = .ok rule)
    (htable : rule.table name = .ok table)
    (hdisjoint : ∀ column, ¬((table.strategyAt rule.defaults .database).isShardingColumn column ∧
      (table.strategyAt rule.defaults .table).isShardingColumn column))
    (hquery : rule.ListsOnce table name query) (hints : Hints) :
    ((∃ nodes, rule.route name query hints = .ok nodes) ↔
        ∀ choice own, rule.Selects table name query hints choice own →
          ∃ nodes, rule.route name choice own = .ok nodes) ∧
      ∀ nodes, rule.route name query hints = .ok nodes → nodes.Sublist table.nodes ∧
        ∀ node, node ∈ nodes ↔ ∃ choice own found,
          rule.Selects table name query hints choice own ∧
            rule.route name choice own = .ok found ∧ node ∈ found := by
  have hroute (given : List Predicate) (hints : Hints) : rule.route name given hints =
      table.resolve rule.defaults (rule.predicatesFor table name given hints) := by
    rw [route, htable]
    rfl
  have hlevels : table.broadcast = false → ∀ level, Decomposes (table.narrow rule.defaults level)
      (fun names name => Name.isIn names name)
      (rule.predicatesFor table name query hints level) := by
    intro hnarrowed
    exact hquery.narrow_decomposes hbuild (mem_tables_of_table htable hnarrowed) hints
  have hexists := hquery.exists_choice hints
  simp only [hroute]
  constructor
  · rw [Table.exists_resolve_iff_of_choices hexists hlevels]
    constructor
    · intro h choice own hselects
      exact h _ hselects.choosesAt
    · intro h choices hchoices
      obtain ⟨choice, own, hselects, rfl⟩ := exists_selects (concerns_unique hdisjoint) hchoices
      exact h choice own hselects
  · intro nodes hnodes
    refine ⟨Table.sublist_of_resolve hnodes, ?_⟩
    intro node
    rw [Table.mem_resolve_iff_of_choices hexists hlevels hnodes]
    constructor
    · rintro ⟨choices, found, hchoices, hfound, hnode⟩
      obtain ⟨choice, own, hselects, rfl⟩ := exists_selects (concerns_unique hdisjoint) hchoices
      exact ⟨choice, own, found, hselects, hfound, hnode⟩
    · rintro ⟨choice, own, found, hselects, hfound, hnode⟩
      exact ⟨_, found, hselects.choosesAt, hfound, hnode⟩

/-! ## Lists of the shop -/

def shopLists : List Predicate :=
  [.list "orders" "user" [.int 1, .int 2], .list "orders" "id" [.int 3]]

theorem listsOnce_shop : shop.ListsOnce orders "orders" shopLists := by
  have hcolumns : Name.same "user" "id" = false := (Name.same_eq _ _).trans rfl
  constructor
  · intro p hp _ _
    simp only [shopLists, List.mem_cons, List.not_mem_nil, or_false] at hp
    rcases hp with rfl | rfl
    · exact ⟨_, _, _, rfl, List.cons_ne_nil _ _⟩
    · exact ⟨_, _, _, rfl, List.cons_ne_nil _ _⟩
  · refine List.pairwise_pair.2 fun _ _ hsame => ?_
    exact Bool.false_ne_true (hcolumns.symm.trans hsame)

theorem route_decomposes_shop :
    build Catalog.builtIn shopConfiguration ["a", "b"] = .ok shop ∧
      shop.table "orders" = .ok orders ∧
      shop.ListsOnce orders "orders" shopLists ∧
      shop.route "orders" shopLists .empty = .ok [⟨"a", "o1"⟩, ⟨"b", "o1"⟩] ∧
      ∃ choice own found, shop.Selects orders "orders" shopLists .empty choice own ∧
        shop.route "orders" choice own = .ok found ∧ ⟨"b", "o1"⟩ ∈ found := by
  have htable : shop.table "orders" = .ok orders := by rw [table, findTable?_shop]
  have hroute : shop.route "orders" shopLists .empty = .ok [⟨"a", "o1"⟩, ⟨"b", "o1"⟩] := by
    rw [route_eq_found findTable?_shop rfl]
    exact eq_ok_of_toOption (by decide +kernel)
  have hdisjoint : ∀ column,
      ¬((orders.strategyAt shop.defaults .database).isShardingColumn column ∧
        (orders.strategyAt shop.defaults .table).isShardingColumn column) := by
    rintro column ⟨huser, hid⟩
    have hne : Name.fold "user" ≠ Name.fold "id" := by decide +kernel
    exact hne ((Name.isIn_singleton.1 huser).trans (Name.isIn_singleton.1 hid).symm)
  refine ⟨build_shop, htable, listsOnce_shop, hroute, ?_⟩
  have hnodes := (route_decomposes build_shop htable hdisjoint listsOnce_shop .empty).2 _ hroute
  exact (hnodes.2 ⟨"b", "o1"⟩).1 (by simp)

end Rule

end Sharding
