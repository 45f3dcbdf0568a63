import Mathlib.Algebra.Group.Nat.Defs
import Sharding.Proofs.Rule.Build
import Sharding.Rule.Routing
/-!
# Key counters

A rule is used by drawing keys for its tables and by asking it questions. A key is drawn on what one
owner remembers, a table or the rule itself, and all else stays as it was (`use_effect`). So, by
induction over the uses, a counter numbers the draws on it from one on, whatever is done in between.
-/

namespace Sharding

/-- What is done with a rule: a key is drawn for a table, with what may be read of the clock, or the
rule is asked a question. -/
inductive Use where
  | draw (table : String) (readings : List Int)
  | ask {α : Type} (question : Rule → α)

/-- A key that was drawn for a table, or the fault for which there is none. There is neither if the
clock had to be read further. -/
structure Draw where
  table : String
  key : Option (Except Fault Int64)

/-- The table for which a key is drawn. -/
def Use.table? : Use → Option String
  | .draw table _ => some table
  | .ask _ => none

namespace Rule

/-- One use: what it draws, if anything, and what is remembered after it. -/
def use (rule : Rule) (memory : Key.Memory) : Use → Option Draw × Key.Memory
  | .draw table readings =>
    match rule.generateKey memory readings table with
    | none => (some ⟨table, none⟩, memory)
    | some turn => (some ⟨table, some turn.key⟩, turn.state)
  | .ask _ => (none, memory)

/-- Uses one after another: what they draw, and what is remembered after them. -/
def useAll (rule : Rule) (memory : Key.Memory) : List Use → List Draw × Key.Memory
  | [] => ([], memory)
  | use :: uses =>
    let (draw, next) := rule.use memory use
    let (draws, last) := rule.useAll next uses
    (draw.toList ++ draws, last)

/-- Who remembers the keys of a table, and the generator that issues them. -/
def issuer? (rule : Rule) (name : String) : Option (Key.Owner × Key.Generator) :=
  (rule.findTable? name).bind fun table =>
    match table.keyGenerator with
    | some generator => some (some table.name, generator)
    | none => rule.defaults.keyGenerator.map fun generator => (none, generator)

/-- A key for the table is drawn on what this owner remembers. -/
def drawsOn (rule : Rule) (owner : Key.Owner) (name : String) : Bool :=
  (rule.issuer? name).any (·.1 == owner)

/-- All keys of the owner come from one kind of counter. -/
def Counts (rule : Rule) (owner : Key.Owner) (nth : Nat → Except Fault Int64) : Prop :=
  ∀ name generator, rule.issuer? name = some (owner, generator) → generator.source = .count nth

/-- All that a use can do. -/
inductive Effect (rule : Rule) (memory : Key.Memory) : Use → Option Draw → Key.Memory → Prop where
  | asked {α : Type} (question : Rule → α) : Effect rule memory (.ask question) none memory
  | refused {name : String} {readings : List Int} {fault : Fault}
      (noIssuer : rule.issuer? name = none) (kind : fault.kind = .configuration) :
      Effect rule memory (.draw name readings) (some ⟨name, some (.error fault)⟩) memory
  | waited {name : String} {readings : List Int} {owner : Key.Owner} {generator : Key.Generator}
      (issuer : rule.issuer? name = some (owner, generator))
      (short : generator.next (memory.state owner) readings = none) :
      Effect rule memory (.draw name readings) (some ⟨name, none⟩) memory
  | drawn {name : String} {readings : List Int} {owner : Key.Owner} {generator : Key.Generator}
      {turn : Key.Turn Key.State} (issuer : rule.issuer? name = some (owner, generator))
      (turns : generator.next (memory.state owner) readings = some turn) :
      Effect rule memory (.draw name readings) (some ⟨name, some turn.key⟩)
        (memory.set owner turn.state)

open Outcome

variable {rule : Rule} {memory next : Key.Memory} {owner : Key.Owner} {generator : Key.Generator}
  {nth : Nat → Except Fault Int64} {name : String}

theorem generateKey_of_issuer (h : rule.issuer? name = some (owner, generator))
    (memory : Key.Memory) (readings : List Int) :
    rule.generateKey memory readings name = memory.next owner generator readings := by
  obtain ⟨table, htable, h⟩ := Option.bind_eq_some_iff.1 h
  simp only [generateKey, htable, Table.generateKey]
  cases hown : table.keyGenerator with
  | some own =>
    rw [hown] at h
    cases h
    rfl
  | none =>
    rw [hown] at h
    obtain ⟨shared, hshared, h⟩ := Option.map_eq_some_iff.1 h
    cases h
    rw [hshared]

theorem generateKey_of_noIssuer (h : rule.issuer? name = none) :
    ∃ fault, fault.kind = .configuration ∧ ∀ memory readings,
      rule.generateKey memory readings name = some ⟨.error fault, memory, readings⟩ := by
  cases htable : rule.findTable? name with
  | none =>
    simp only [generateKey, htable]
    exact ⟨_, rfl, fun _ _ => rfl⟩
  | some table =>
    rw [issuer?, htable, Option.bind_some] at h
    simp only [generateKey, htable, Table.generateKey]
    cases hown : table.keyGenerator with
    | some own =>
      rw [hown] at h
      cases h
    | none =>
      rw [hown] at h
      rw [Option.map_eq_none_iff.1 h]
      exact ⟨_, rfl, fun _ _ => rfl⟩

/-! ## One use -/

theorem use_effect (rule : Rule) (memory : Key.Memory) (use : Use) :
    rule.Effect memory use (rule.use memory use).1 (rule.use memory use).2 := by
  cases use with
  | ask question => exact .asked question
  | draw name readings =>
    unfold Rule.use
    cases hissuer : rule.issuer? name with
    | none =>
      obtain ⟨fault, hkind, hrefused⟩ := generateKey_of_noIssuer hissuer
      simp only [hrefused]
      exact .refused hissuer hkind
    | some issuer =>
      obtain ⟨owner, generator⟩ := issuer
      simp only [generateKey_of_issuer hissuer, Key.Memory.next]
      cases hturn : generator.next (memory.state owner) readings with
      | none => exact .waited hissuer hturn
      | some turn => exact .drawn hissuer hturn

theorem next_of_count (h : generator.source = .count nth) (state : Key.State)
    (readings : List Int) :
    generator.next state readings =
      some ⟨nth state.count, { state with count := state.count + 1 }, readings⟩ := by
  rw [Key.Generator.next, h]

namespace Effect

variable {use : Use} {draw : Option Draw}

theorem table?_eq (effect : rule.Effect memory use draw next) :
    draw.map (·.table) = use.table? := by
  cases effect <;> rfl

/-- Without an issuer nothing is drawn, and nothing that is remembered changes. -/
theorem of_noIssuer (effect : rule.Effect memory use draw next)
    (h : ∀ name ∈ use.table?, rule.issuer? name = none) :
    next = memory ∧ ∀ d ∈ draw, ∃ fault, d.key = some (.error fault) ∧
      fault.kind = .configuration := by
  cases effect with
  | asked => exact ⟨rfl, fun d hd => nomatch hd⟩
  | refused _ kind =>
    refine ⟨rfl, fun d hd => ?_⟩
    cases hd
    exact ⟨_, rfl, kind⟩
  | waited issuer | drawn issuer => cases (h _ rfl).symm.trans issuer

/-- A use draws the next number of a counter, or leaves it alone. -/
theorem of_counts (effect : rule.Effect memory use draw next) (hcounts : rule.Counts owner nth) :
    (∃ name, draw = some ⟨name, some (nth (memory.state owner).count)⟩ ∧
        rule.drawsOn owner name ∧ (next.state owner).count = (memory.state owner).count + 1) ∨
      (∀ d ∈ draw, rule.drawsOn owner d.table = false) ∧
        next.state owner = memory.state owner := by
  cases effect with
  | asked => simp
  | refused noIssuer => simp [drawsOn, noIssuer]
  | @waited name _ other generator issuer short =>
    right
    by_cases heq : other = owner
    · subst heq
      rw [next_of_count (hcounts name generator issuer)] at short
      cases short
    · simp [drawsOn, issuer, heq]
  | @drawn name _ other generator turn issuer turns =>
    by_cases heq : other = owner
    · subst heq
      rw [next_of_count (hcounts name generator issuer)] at turns
      cases turns
      exact .inl ⟨name, rfl, by simp [drawsOn, issuer], by rw [Key.Memory.state_set_self]⟩
    · right
      simp [drawsOn, issuer, heq, Key.Memory.state_set_of_ne memory turn.state (Ne.symm heq)]

end Effect

/-! ## Uses one after another -/

theorem useAll_cons (rule : Rule) (memory : Key.Memory) (use : Use) (uses : List Use) :
    rule.useAll memory (use :: uses) =
      ((rule.use memory use).1.toList ++ (rule.useAll (rule.use memory use).2 uses).1,
        (rule.useAll (rule.use memory use).2 uses).2) := rfl

theorem tables_useAll (rule : Rule) (memory : Key.Memory) (uses : List Use) :
    (rule.useAll memory uses).1.map (·.table) = uses.filterMap Use.table? := by
  induction uses generalizing memory with
  | nil => rfl
  | cons use uses ih =>
    simp only [useAll_cons, List.map_append, ih, List.filterMap_cons,
      ← (rule.use_effect memory use).table?_eq]
    cases (rule.use memory use).1 <;> rfl

theorem exists_effect_of_mem {uses : List Use} {draw : Draw}
    (h : draw ∈ (rule.useAll memory uses).1) :
    ∃ before use after, rule.Effect before use (some draw) after := by
  induction uses generalizing memory with
  | nil => cases h
  | cons use uses ih =>
    rw [useAll_cons] at h
    rcases List.mem_append.1 h with h | h
    · have heffect := rule.use_effect memory use
      rw [Option.mem_toList.1 h] at heffect
      exact ⟨_, _, _, heffect⟩
    · exact ih h

/-- The draws on a counter have the numbers after its count, in turn. -/
theorem useAll_numbers (hcounts : rule.Counts owner nth) {uses : List Use} {i : Nat} {draw : Draw}
    (h : ((rule.useAll memory uses).1.filter (rule.drawsOn owner ·.table))[i]? = some draw) :
    draw.key = some (nth ((memory.state owner).count + i)) := by
  induction uses generalizing memory i with
  | nil => cases h
  | cons use uses ih =>
    rw [useAll_cons, List.filter_append] at h
    obtain ⟨name, hdraw, hon, hcount⟩ | ⟨hoff, hstate⟩ :=
      (rule.use_effect memory use).of_counts hcounts
    · simp only [hdraw, Option.toList_some, List.filter_singleton, hon] at h
      cases i with
      | zero =>
        cases h
        rfl
      | succ i =>
        rw [ih h, hcount, Nat.add_right_comm]
        rfl
    · have hnone : (rule.use memory use).1.toList.filter (rule.drawsOn owner ·.table) = [] :=
        List.filter_eq_nil_iff.2 fun d hd => by simp [hoff d (Option.mem_toList.1 hd)]
      rw [hnone, List.nil_append] at h
      rw [ih h, hstate]

/-- The use draws a key for a configured table. -/
def drawsForTable (rule : Rule) (use : Use) : Bool :=
  use.table?.any fun name => (rule.findTable? name).isSome

theorem Effect.filter_draw {use : Use} {draw : Option Draw}
    (effect : rule.Effect memory use draw next) :
    draw.toList.filter (fun draw => (rule.findTable? draw.table).isSome) =
      if rule.drawsForTable use then draw.toList else [] := by
  rw [drawsForTable, ← effect.table?_eq]
  cases draw with
  | none => rfl
  | some draw => simp [List.filter_singleton, Bool.cond_eq_ite]

theorem Effect.eq_of_not_drawsForTable {use : Use} {draw : Option Draw}
    (effect : rule.Effect memory use draw next) (h : rule.drawsForTable use = false) :
    next = memory := by
  refine (effect.of_noIssuer fun name hname => ?_).1
  rw [drawsForTable, hname, Option.any_some, Option.isSome_eq_false_iff,
    Option.isNone_iff_eq_none] at h
  rw [issuer?, h, Option.bind_none]

/-- Without the other uses the same keys are drawn for the configured tables, and the same is
remembered in the end. -/
theorem useAll_filter (rule : Rule) (memory : Key.Memory) (uses : List Use) :
    rule.useAll memory (uses.filter rule.drawsForTable) =
      ((rule.useAll memory uses).1.filter fun draw => (rule.findTable? draw.table).isSome,
        (rule.useAll memory uses).2) := by
  induction uses generalizing memory with
  | nil => rfl
  | cons use uses ih =>
    have heffect := rule.use_effect memory use
    rw [useAll_cons, List.filter_append, heffect.filter_draw]
    cases hfor : rule.drawsForTable use with
    | true =>
      rw [List.filter_cons_of_pos hfor, useAll_cons, ih]
      rfl
    | false =>
      rw [List.filter_cons_of_neg (by simp [hfor]), ih, heffect.eq_of_not_drawsForTable hfor]
      rfl

/-! ## Counters of a built rule -/

theorem WellFormed.drawsOn_own (hrule : rule.WellFormed) {table : Table}
    (htable : table ∈ rule.tables) (hown : table.keyGenerator = some generator) (name : String) :
    rule.drawsOn (some table.name) name = Name.same table.name name := by
  cases hsame : Name.same table.name name with
  | true => simp [drawsOn, issuer?, hrule.findTable?_eq_some htable hsame, hown]
  | false =>
    cases hfound : rule.findTable? name with
    | none => simp [drawsOn, issuer?, hfound]
    | some other =>
      have hother : other.name ≠ table.name := by
        intro heq
        have hname := List.find?_some hfound
        rw [heq, hsame] at hname
        cases hname
      cases hgenerator : other.keyGenerator with
      | some own => simp [drawsOn, issuer?, hfound, hgenerator, hother]
      | none => cases hshared : rule.defaults.keyGenerator <;>
          simp [drawsOn, issuer?, hfound, hgenerator, hshared]

theorem drawsOn_shared (hshared : rule.defaults.keyGenerator = some generator) (name : String) :
    rule.drawsOn none name = (rule.findTable? name).any (·.keyGenerator.isNone) := by
  cases hfound : rule.findTable? name with
  | none => simp [drawsOn, issuer?, hfound]
  | some table =>
    cases hown : table.keyGenerator <;> simp [drawsOn, issuer?, hfound, hown, hshared]

theorem WellFormed.generator_of_own (hrule : rule.WellFormed) {table : Table}
    {own : Key.Generator} (htable : table ∈ rule.tables) (hown : table.keyGenerator = some own)
    (h : rule.issuer? name = some (some table.name, generator)) : generator = own := by
  have hon : rule.drawsOn (some table.name) name := by simp [drawsOn, h]
  rw [hrule.drawsOn_own htable hown] at hon
  rw [issuer?, hrule.findTable?_eq_some htable hon, Option.bind_some, hown] at h
  cases h
  rfl

theorem generator_of_shared {shared : Key.Generator}
    (hshared : rule.defaults.keyGenerator = some shared)
    (h : rule.issuer? name = some (none, generator)) : generator = shared := by
  obtain ⟨table, _, h⟩ := Option.bind_eq_some_iff.1 h
  cases hown : table.keyGenerator with
  | some own =>
    rw [hown] at h
    cases h
  | none =>
    rw [hown, hshared] at h
    cases h
    rfl

/-- Numbered from one on, as far as the numbers are 64-bit integers. -/
def Numbered (draws : List Draw) : Prop :=
  ∀ (i : Nat) (draw : Draw), draws[i]? = some draw → i + 1 < 2 ^ 63 →
    ∃ key : Int64, draw.key = some (.ok key) ∧ key.toInt = (i + 1 : Nat)

/-- What it means for the uses of a rule that its counters are apart. -/
structure CountersApart (rule : Rule) (uses : List Use) (draws : List Draw) (last : Key.Memory) :
    Prop where
  /-- Each draw has its key or its fault. -/
  tables : draws.map (·.table) = uses.filterMap Use.table?
  /-- The counter of a table numbers the draws that name the table. -/
  own : ∀ table ∈ rule.tables, ∀ props, table.keyGenerator = some (Key.increment props) →
    Numbered (draws.filter fun draw => Name.same table.name draw.table)
  /-- The counter of the rule numbers the draws for all tables without a generator. -/
  shared : ∀ props, rule.defaults.keyGenerator = some (Key.increment props) →
    Numbered (draws.filter fun draw =>
      (rule.findTable? draw.table).any (·.keyGenerator.isNone))
  /-- There are no keys for other names. -/
  refused : ∀ draw ∈ draws, rule.findTable? draw.table = none →
    ∃ fault, draw.key = some (.error fault) ∧ fault.kind = .configuration
  /-- Without questions and such names the tables have the same keys, and the same is remembered. -/
  unmoved : rule.useAll .empty (uses.filter rule.drawsForTable) =
    (draws.filter fun draw => (rule.findTable? draw.table).isSome, last)

theorem numbered_of_counts {props : Properties}
    (h : ∀ name generator, rule.issuer? name = some (owner, generator) →
      generator = Key.increment props) (uses : List Use) :
    Numbered ((rule.useAll .empty uses).1.filter (rule.drawsOn owner ·.table)) := by
  have hcounts : rule.Counts owner fun n => .ok (Int64.ofNat (n + 1)) := by
    intro name generator hissuer
    rw [h name generator hissuer]
    rfl
  intro i draw hdraw hi
  have hkey := useAll_numbers hcounts hdraw
  have hcount : (Key.Memory.empty.state owner).count = 0 := rfl
  rw [hcount, Nat.zero_add] at hkey
  exact ⟨_, hkey, Int64.toInt_ofNat_of_lt hi⟩

/-- The counters of a built rule are apart in every run. -/
theorem counters_apart {catalog : Catalog} {config : Configuration.Rule} {dataSources : List String}
    (h : build catalog config dataSources = .ok rule) (uses : List Use) :
    CountersApart rule uses (rule.useAll .empty uses).1 (rule.useAll .empty uses).2 := by
  have hrule := build_wellFormed h
  refine ⟨tables_useAll rule .empty uses, fun table htable props hown => ?_,
    fun props hshared => ?_, fun draw hdraw hmissing => ?_, useAll_filter rule .empty uses⟩
  · have hnumbered := numbered_of_counts (fun _ _ => hrule.generator_of_own htable hown) uses
    simpa only [hrule.drawsOn_own htable hown] using hnumbered
  · have hnumbered := numbered_of_counts (fun _ _ => generator_of_shared hshared) uses
    simpa only [drawsOn_shared hshared] using hnumbered
  · obtain ⟨before, use, after, heffect⟩ := exists_effect_of_mem hdraw
    refine (heffect.of_noIssuer fun name hname => ?_).2 draw rfl
    rw [← heffect.table?_eq] at hname
    cases hname
    rw [issuer?, hmissing, Option.bind_none]

/-! ## A depot

Two tables share the counter of the rule, and a third one has its own.
-/

def depotConfiguration : Configuration.Rule where
  tables := [.ofName "orders" none, .ofName "items" none,
    { Configuration.Table.ofName "parcels" none with
      keyGenerator := some ⟨"id", .ofType "INCREMENT"⟩ }]
  bindingGroups := []
  broadcastTables := ["regions"]
  databaseStrategy := none
  tableStrategy := none
  keyGenerator := some ⟨"id", .ofType "INCREMENT"⟩

def depotTable (name : String) (keyGenerator : Option Key.Generator) : Table where
  name := name
  nodes := [⟨"a", name⟩]
  databaseStrategy := none
  tableStrategy := none
  keyColumn := some "id"
  keyGenerator := keyGenerator
  broadcast := false

def depot : Rule where
  dataSources := ["a"]
  tables := [depotTable "orders" none, depotTable "items" none,
    depotTable "parcels" (some (Key.increment .empty))]
  bindingGroups := []
  broadcastTables := ["regions"]
  defaults := ⟨none, none, some "id", some (Key.increment .empty)⟩

def depotUses : List Use :=
  [.draw "orders" [], .draw "PARCELS" [], .ask fun rule => rule.route "items" [] .empty,
    .draw "regions" [], .draw "Items" [], .draw "parcels" []]

theorem build_depotTable {name : String} {keys : Option Configuration.KeyGenerator}
    {keyGenerator : Option Key.Generator} (hname : Text.content? name = some name)
    (hfold : Name.fold name = name)
    (hkeys : Table.buildKeys .builtIn name (some "id") keys = .ok (some "id", keyGenerator)) :
    Table.build .builtIn ["a"] (some "id")
        { Configuration.Table.ofName name none with keyGenerator := keys } =
      .ok (depotTable name keyGenerator) := by
  simp only [Table.build, Configuration.Table.ofName, hname, hfold, Option.bind_none, hkeys]
  rfl

theorem build_depot : build .builtIn depotConfiguration ["a"] = .ok depot := by
  have hdataSources : readDataSources ["a"] = .ok depot.dataSources :=
    eq_ok_of_toOption (by decide)
  have hdefaults : buildDefaults .builtIn depotConfiguration = .ok depot.defaults := by
    refine bind_eq_ok.2 ⟨none, rfl, bind_eq_ok.2 ⟨none, rfl, bind_eq_ok.2 ?_⟩⟩
    exact ⟨_, buildDefaultKeys_increment, rfl⟩
  have hkeys : Table.buildKeys .builtIn "parcels" (some "id")
      (some ⟨"id", .ofType "INCREMENT"⟩) = .ok (some "id", some (Key.increment .empty)) := by
    have hcontent : Text.content? "id" = some "id" := by decide
    simp only [Table.buildKeys, hcontent, createKeyGenerator_ofIncrement]
    rfl
  have horders : Table.build .builtIn ["a"] (some "id") (.ofName "orders" none) =
      .ok (depotTable "orders" none) :=
    build_depotTable rfl (Name.fold_eq_iff.2 (by decide)) rfl
  have hitems : Table.build .builtIn ["a"] (some "id") (.ofName "items" none) =
      .ok (depotTable "items" none) :=
    build_depotTable rfl (Name.fold_eq_iff.2 (by decide)) rfl
  have hparcels := build_depotTable rfl (Name.fold_eq_iff.2 (by decide)) hkeys
  have htables : depotConfiguration.tables.foldlM
      (addTable .builtIn depot.dataSources depot.defaults.keyColumn) [] = .ok depot.tables := by
    apply bind_eq_ok.2
    refine ⟨_, bind_eq_ok.2 ⟨_, horders, rfl⟩, bind_eq_ok.2 ?_⟩
    refine ⟨_, bind_eq_ok.2 ⟨_, hitems, rfl⟩, bind_eq_ok.2 ?_⟩
    exact ⟨_, bind_eq_ok.2 ⟨_, hparcels, rfl⟩, rfl⟩
  apply bind_eq_ok.2
  refine ⟨_, hdataSources, bind_eq_ok.2 ⟨_, hdefaults, ?_⟩⟩
  apply bind_eq_ok.2
  refine ⟨_, htables, bind_eq_ok.2 ⟨_, rfl, ?_⟩⟩
  rw [depotConfiguration, readBroadcastTables_regions]
  rfl

theorem generateKey_of_increment {props : Properties}
    (h : rule.issuer? name = some (owner, Key.increment props)) (memory : Key.Memory)
    (readings : List Int) :
    rule.generateKey memory readings name =
      some ⟨.ok (Int64.ofNat ((memory.state owner).count + 1)),
        memory.set owner ⟨(memory.state owner).snowflake, (memory.state owner).count + 1⟩,
        readings⟩ := by
  rw [generateKey_of_issuer h]
  rfl

theorem draws_depotUses (own : String) (props : Properties)
    (hshared : ∀ name ∈ ["orders", "Items"], rule.issuer? name = some (none, Key.increment props))
    (hown : ∀ name ∈ ["PARCELS", "parcels"],
      rule.issuer? name = some (some own, Key.increment props))
    (hregions : rule.findTable? "regions" = none) :
    (rule.useAll .empty depotUses).1 =
      [⟨"orders", some (.ok 1)⟩, ⟨"PARCELS", some (.ok 1)⟩,
        ⟨"regions", some (.error (.configuration (.noKeyStrategy "regions")))⟩,
        ⟨"Items", some (.ok 2)⟩, ⟨"parcels", some (.ok 2)⟩] := by
  have hinitial (owner : Key.Owner) : Key.Memory.empty.state owner = .initial := rfl
  have horders := generateKey_of_increment (hshared "orders" (by simp))
  have hitems := generateKey_of_increment (hshared "Items" (by simp))
  have hparcels := generateKey_of_increment (hown "PARCELS" (by simp))
  have hagain := generateKey_of_increment (hown "parcels" (by simp))
  have hrefused (memory : Key.Memory) (readings : List Int) :
      rule.generateKey memory readings "regions" =
        some ⟨.error (.configuration (.noKeyStrategy "regions")), memory, readings⟩ := by
    rw [generateKey, hregions]
  simp [useAll, use, depotUses, horders, hitems, hparcels, hagain, hrefused, hinitial,
    Key.Memory.state_set_self, Key.Memory.state_set_of_ne, Key.State.initial]

theorem issuer?_depot {table : Table} (htable : table ∈ depot.tables)
    (hname : Name.same table.name name) :
    depot.issuer? name =
      some (table.keyGenerator.map fun _ => table.name, Key.increment .empty) := by
  rw [issuer?, (build_wellFormed build_depot).findTable?_eq_some htable hname]
  simp only [depot, List.mem_cons, List.not_mem_nil, or_false] at htable
  obtain rfl | rfl | rfl := htable <;> rfl

/-- The broadcast table, the question and the draws for the parcels leave the counter of the rule
alone. -/
theorem counters_apart_depot :
    build .builtIn depotConfiguration ["a"] = .ok depot ∧
      CountersApart depot depotUses (depot.useAll .empty depotUses).1
        (depot.useAll .empty depotUses).2 ∧
      (depot.useAll .empty depotUses).1 =
        [⟨"orders", some (.ok 1)⟩, ⟨"PARCELS", some (.ok 1)⟩,
          ⟨"regions", some (.error (.configuration (.noKeyStrategy "regions")))⟩,
          ⟨"Items", some (.ok 2)⟩, ⟨"parcels", some (.ok 2)⟩] := by
  refine ⟨build_depot, counters_apart build_depot depotUses, ?_⟩
  have hitem : Name.same "items" "Items" := (Name.same_eq _ _).trans rfl
  have hparcel : Name.same "parcels" "PARCELS" := (Name.same_eq _ _).trans rfl
  have hregions : depot.findTable? "regions" = none := by
    simp only [findTable?, List.find?_eq_none, Name.same_eq]
    decide
  have hitself (name : String) : Name.same name name := Name.same_iff.2 rfl
  refine draws_depotUses "parcels" .empty (fun name hname => ?_) (fun name hname => ?_) hregions
  · simp only [List.mem_cons, List.not_mem_nil, or_false] at hname
    obtain rfl | rfl := hname
    · exact issuer?_depot (.head _) (hitself "orders")
    · exact issuer?_depot (.tail _ (.head _)) hitem
  · simp only [List.mem_cons, List.not_mem_nil, or_false] at hname
    obtain rfl | rfl := hname
    · exact issuer?_depot (.tail _ (.tail _ (.head _))) hparcel
    · exact issuer?_depot (.tail _ (.tail _ (.head _))) (hitself "parcels")

end Rule

end Sharding
