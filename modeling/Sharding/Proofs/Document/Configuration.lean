import Sharding.Document.Reader
import Sharding.Document.Writer
import Sharding.Proofs.Dictionary
import Sharding.Proofs.Document.Tree
/-!
# Written configurations are read back

Each part of a configuration is written as a tree, and its reader finds the same part in the value
of that tree. What is absent, what is empty and what is incomplete are written apart.
-/

namespace Sharding.Document

open Document.Tree

/-- What is written of a part is read as that part. -/
def ReadsBack {α : Type} (read : Json → Option α) (write : α → Tree) : Prop :=
  ∀ a, read (write a).json = some a

namespace Reader

variable {α : Type} {read : Json → Option α} {write : α → Tree}

theorem text_readsBack : ReadsBack text .text := by
  intro s
  simp [text, json, textOf_pieces]

theorem list_readsBack (h : ReadsBack read write) :
    ReadsBack (list read) fun as => .list (as.map write) := by
  intro as
  simp only [json, jsonItems_eq, list, List.map_map]
  induction as with
  | nil => rfl
  | cons a as ih => simp [h a, ih]

theorem json_ne_null {tree : Tree} (h : tree ≠ .null) : tree.json ≠ .null := by
  cases tree with
  | null => exact absurd rfl h
  | _ => exact Json.noConfusion

theorem optional_readsBack (h : ReadsBack read write) (hnull : ∀ a, write a ≠ .null) :
    ReadsBack (optional read) (Writer.optional write) := by
  intro o
  cases o with
  | none => rfl
  | some a =>
    have hread : optional read (write a).json = some <$> read (write a).json := by
      rw [optional]
      exact json_ne_null (hnull a)
    exact hread.trans (congrArg _ (h a))

theorem keyed_jsonFields (fields : List (String × Tree)) :
    keyed (jsonFields fields) = some (fields.map (Prod.map id json)) := by
  induction fields with
  | nil => rfl
  | cons field fields ih =>
    rw [keyed] at ih ⊢
    simp [jsonFields, textOf_pieces, ih, Prod.map]

/-- A record that is written with known fields, each once, gives them all. -/
theorem record_json {names : List String} (needed : Nat) {fields : List (String × Tree)}
    (hknown : ∀ field ∈ fields, field.1 ∈ names) (honce : (fields.map (·.1)).Nodup) :
    record names needed (Tree.record fields).json = some (fields.map (Prod.map id json)) := by
  have hgiven : (fields.map (Prod.map id json)).filter (fun member => names.contains member.1) =
      fields.map (Prod.map id json) := by
    rw [List.filter_map, List.filter_eq_self.2]
    simpa using hknown
  have hkeys : (fields.map (Prod.map id json)).map (·.1) = fields.map (·.1) := by
    simp
  simp only [json, record, keyed_jsonFields, Option.bind_eq_bind, Option.bind_some, hgiven, hkeys,
    if_pos honce]

theorem properties_readsBack : ReadsBack properties fun props =>
    .record (props.entries.map fun entry => (entry.1, .text entry.2)) := by
  intro props
  have hentries (entries : List (String × String)) :
      ((entries.map fun entry => (entry.1, Tree.text entry.2)).map (Prod.map id json)).mapM
        (fun member => (text member.2).map fun value => (member.1, value)) = some entries := by
    induction entries with
    | nil => rfl
    | cons entry entries ih =>
      simp only [List.map_cons, List.mapM_cons, Prod.map, id_eq, text_readsBack entry.2, ih]
      rfl
  simp only [json, properties, keyed_jsonFields, Option.bind_eq_bind, Option.bind_some]
  apply Option.bind_eq_some_iff.2
  exact ⟨props.entries, hentries props.entries, by rw [Dictionary.ofList_entries]⟩

theorem algorithm_readsBack : ReadsBack algorithm Writer.algorithm := by
  intro config
  have htype := text_readsBack config.type
  have hprops := properties_readsBack config.props
  rw [algorithm, Writer.algorithm, record_json 1 (by simp) (by simp)]
  simp [required, defaulted, List.lookup_cons, htype, hprops]

theorem keyGenerator_readsBack : ReadsBack keyGenerator Writer.keyGenerator := by
  intro config
  have hcolumn := text_readsBack config.column
  have halgorithm := algorithm_readsBack config.algorithm
  rw [keyGenerator, Writer.keyGenerator, record_json 2 (by simp) (by simp)]
  simp [required, List.lookup_cons, hcolumn, halgorithm]

/-! ## Strategies -/

mutual

/-- Whatever is written is sound. -/
theorem isSound_json : (tree : Tree) → tree.json.isSound
  | .null => rfl
  | .text s => by simp [json, Json.isSound, textOf_pieces]
  | .list items => allSound_jsonItems items
  | .record fields => allMembersSound_jsonFields fields

theorem allSound_jsonItems : (items : List Tree) → Json.allSound (jsonItems items)
  | [] => rfl
  | item :: items => by
    simp [jsonItems, Json.allSound, isSound_json item, allSound_jsonItems items]

theorem allMembersSound_jsonFields :
    (fields : List (String × Tree)) → Json.allMembersSound (jsonFields fields)
  | [] => rfl
  | (key, field) :: fields => by
    simp [jsonFields, Json.allMembersSound, textOf_pieces, isSound_json field,
      allMembersSound_jsonFields fields]

end

theorem depth_algorithm (config : Configuration.Algorithm) :
    (Writer.algorithm config).json.depth = 2 := by
  have hprops (entries : List (String × String)) : Json.depthOfMembers
      (jsonFields (entries.map fun entry => (entry.1, .text entry.2))) = 0 := by
    induction entries with
    | nil => rfl
    | cons entry entries ih => simp [jsonFields, Json.depthOfMembers, json, Json.depth, ih]
  simp [Writer.algorithm, json, jsonFields, Json.depth, Json.depthOfMembers, hprops]

theorem depth_strategy (config : Configuration.Strategy) :
    (Writer.strategy config).json.depth ≤ 3 := by
  have htext (o : Option String) : (Writer.optional Tree.text o).json.depth = 0 := by
    cases o <;> rfl
  have halgorithm (o : Option Configuration.Algorithm) :
      (Writer.optional Writer.algorithm o).json.depth ≤ 2 := by
    cases o with
    | none => simp [Writer.optional, json, Json.depth]
    | some config => exact (depth_algorithm config).le
  cases config with
  | standard column algorithm =>
    have h := halgorithm algorithm
    simp only [Writer.strategy, json, jsonFields, Json.depth, Json.depthOfMembers, htext]
    omega
  | complex columns algorithm =>
    have h := halgorithm algorithm
    simp only [Writer.strategy, json, jsonFields, Json.depth, Json.depthOfMembers, htext]
    omega
  | hint algorithm =>
    have h := halgorithm algorithm
    simp only [Writer.strategy, json, jsonFields, Json.depth, Json.depthOfMembers]
    omega
  | none =>
    simp only [Writer.strategy, json, jsonFields, Json.depth, Json.depthOfMembers]
    omega

theorem isKindKey_pieces (key : String) : isKindKey (pieces key) ↔ key = "type" := by
  rw [isKindKey, textOf_pieces, beq_iff_eq, Option.some.injEq, String.toList_inj]

/-- A strategy is read by its kind from the fields beside it. -/
theorem strategy_of_kind {outside : Nat} {kind : String} {fields : List (String × Tree)}
    (hfields : ∀ field ∈ fields, field.1 ≠ "type")
    (hdepth : outside + (Tree.record (("type", .text kind) :: fields)).json.depth ≤ maxDepth) :
    strategy outside (Tree.record (("type", .text kind) :: fields)).json =
      strategyOfKind kind (Tree.record fields).json := by
  have hothers : ∀ member ∈ jsonFields fields, ¬isKindKey member.1 := by
    intro member hmember
    rw [jsonFields_eq] at hmember
    obtain ⟨field, hfield, rfl⟩ := List.mem_map.1 hmember
    rw [isKindKey_pieces]
    exact hfields field hfield
  have hkind : isKindKey (pieces "type") := (isKindKey_pieces "type").2 rfl
  have hnone : (jsonFields fields).filter (fun member => isKindKey member.1) = [] :=
    List.filter_eq_nil_iff.2 hothers
  have hall : (jsonFields fields).filter (fun member => !isKindKey member.1) = jsonFields fields :=
    List.filter_eq_self.2 fun member hmember => by simpa using hothers member hmember
  have hjson : (Tree.record (("type", .text kind) :: fields)).json =
      .object ((pieces "type", .string (pieces kind)) :: jsonFields fields) := rfl
  have hread : ¬(!(Tree.record (("type", .text kind) :: fields)).json.isSound ||
      maxDepth < outside + (Tree.record (("type", .text kind) :: fields)).json.depth) := by
    rw [isSound_json]
    simpa using hdepth
  unfold strategy
  rw [if_neg hread, hjson]
  simp only [List.filter_cons, hkind, hnone, hall, if_true, Bool.not_true, Bool.false_eq_true,
    if_false]
  simp [text, textOf_pieces, json]

theorem strategy_ne_null (config : Configuration.Strategy) : Writer.strategy config ≠ .null := by
  cases config <;> exact Tree.noConfusion

theorem strategy_readsBack {outside : Nat} (h : outside + 3 ≤ maxDepth) :
    ReadsBack (strategy outside) Writer.strategy := by
  intro config
  have hdepth : outside + (Writer.strategy config).json.depth ≤ maxDepth :=
    (Nat.add_le_add_left (depth_strategy config) outside).trans h
  have htext (o : Option String) :=
    optional_readsBack text_readsBack (fun _ => Tree.noConfusion) o
  have halgorithm (o : Option Configuration.Algorithm) :=
    optional_readsBack algorithm_readsBack (fun _ => Tree.noConfusion) o
  cases config with
  | standard column config =>
    rw [Writer.strategy, strategy_of_kind (by simp) hdepth, strategyOfKind]
    rw [record_json 2 (by simp) (by simp)]
    simp [defaulted, List.lookup_cons, htext, halgorithm]
  | complex columns config =>
    rw [Writer.strategy, strategy_of_kind (by simp) hdepth, strategyOfKind]
    rw [record_json 2 (by simp) (by simp)]
    simp [defaulted, List.lookup_cons, htext, halgorithm]
  | hint config =>
    rw [Writer.strategy, strategy_of_kind (by simp) hdepth, strategyOfKind]
    rw [record_json 1 (by simp) (by simp)]
    simp [defaulted, halgorithm]
  | none =>
    rw [Writer.strategy, strategy_of_kind (by simp) hdepth]
    simp [strategyOfKind, json, jsonFields]

/-! ## Tables, rules, documents -/

theorem table_readsBack : ReadsBack table Writer.table := by
  intro config
  have hname := text_readsBack config.name
  have hnodes := optional_readsBack text_readsBack (fun _ => Tree.noConfusion) config.nodes
  have hstrategy (o : Option Configuration.Strategy) :=
    optional_readsBack (strategy_readsBack (by decide : 4 + 3 ≤ maxDepth)) strategy_ne_null o
  have hkeys := optional_readsBack keyGenerator_readsBack (fun _ => Tree.noConfusion)
    config.keyGenerator
  rw [table, Writer.table, record_json 1 (by simp [tableFields]) (by simp)]
  simp [required, defaulted, List.lookup_cons, hname, hnodes, hstrategy, hkeys]

theorem rule_readsBack : ReadsBack rule Writer.rule := by
  intro config
  have htables := list_readsBack table_readsBack config.tables
  have htexts (names : List String) := list_readsBack text_readsBack names
  have hstrategy (o : Option Configuration.Strategy) :=
    optional_readsBack (strategy_readsBack (by decide : 2 + 3 ≤ maxDepth)) strategy_ne_null o
  have hkeys := optional_readsBack keyGenerator_readsBack (fun _ => Tree.noConfusion)
    config.keyGenerator
  rw [rule, Writer.rule, record_json 0 (by simp [ruleFields]) (by simp)]
  simp [defaulted, List.lookup_cons, Writer.texts, htables, htexts, hstrategy, hkeys]

theorem document_readsBack : ReadsBack document Writer.document := by
  intro config
  have hnames := list_readsBack text_readsBack config.dataSources
  have hrule := rule_readsBack config.rule
  rw [document, Writer.document, record_json 2 (by simp) (by simp)]
  simp [required, List.lookup_cons, Writer.texts, hnames, hrule]

end Reader

/-- Every configuration can be written, and its text is read as that configuration. -/
theorem read?_print (config : Configuration.Document) : read? (print config) = some config := by
  rw [read?, print, Json.parse_pretty, Option.bind_some]
  exact Reader.document_readsBack config

end Sharding.Document
