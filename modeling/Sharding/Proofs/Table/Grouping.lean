import Sharding.Proofs.Name
import Sharding.Table.Basic
/-!
# Nodes by data source

The nodes of a table are grouped by their data sources. Every node is in one group, in the order of
the nodes, and a physical table is found at the place that its node has in the group, whichever
spellings are used and however the data sources take turns.
-/

namespace Sharding

/-- The node under its data source in normal form. -/
def Node.underFolded (node : Node) : Node :=
  ⟨Name.fold node.dataSource, node.table⟩

namespace Table

variable {table : Table} {dataSource actual : String}

/-! ## Filing one node after another -/

/-- Files the physical table of a node: in the first group of its data source after those that are
there, or in a new group after the others. -/
def file (node : Node) : List (String × List String) → List (String × List String)
  | [] => [(node.dataSource, [node.table])]
  | (dataSource, actuals) :: groups =>
    if node.isInDataSource dataSource then (dataSource, actuals ++ [node.table]) :: groups
    else (dataSource, actuals) :: file node groups

def fileAll (nodes : List Node) : List (String × List String) :=
  nodes.foldl (fun groups node => file node groups) []

/-- The physical tables in the first group of a data source. -/
def filedIn (groups : List (String × List String)) (dataSource : String) : List String :=
  ((groups.find? fun group => Name.same group.1 dataSource).map (·.2)).getD []

theorem isInDataSource_iff {node : Node} :
    node.isInDataSource dataSource ↔ Name.fold node.dataSource = Name.fold dataSource :=
  Name.same_iff

theorem isIn_dataSources_iff {nodes : List Node} :
    Name.isIn (nodes.map (·.dataSource)) dataSource ↔
      ∃ node ∈ nodes, node.isInDataSource dataSource := by
  rw [Name.isIn_iff]
  simp [isInDataSource_iff]

/-- Filing in a known data source adds to its tables and changes nothing else. -/
theorem file_of_isIn {node : Node} {dataSources : List String}
    (hdistinct : dataSources.Pairwise fun a b => Name.fold a ≠ Name.fold b)
    (h : Name.isIn dataSources node.dataSource) (actuals : String → List String) :
    file node (dataSources.map fun name => (name, actuals name)) =
      dataSources.map fun name =>
        (name, actuals name ++ if node.isInDataSource name then [node.table] else []) := by
  induction dataSources with
  | nil => cases h
  | cons first dataSources ih =>
    obtain ⟨hfirst, hdistinct⟩ := List.pairwise_cons.1 hdistinct
    rw [List.map_cons, List.map_cons, file]
    by_cases hin : node.isInDataSource first
    · have hothers : ∀ name ∈ dataSources, ¬node.isInDataSource name := fun name hname heq =>
        hfirst name hname ((isInDataSource_iff.1 hin).symm.trans (isInDataSource_iff.1 heq))
      rw [if_pos hin, if_pos hin]
      refine congrArg _ (List.map_congr_left fun name hname => ?_)
      rw [if_neg (hothers name hname), List.append_nil]
    · have hrest : Name.isIn dataSources node.dataSource :=
        (Name.isIn_cons.1 h).resolve_left fun heq => hin (isInDataSource_iff.2 heq.symm)
      rw [if_neg hin, if_neg hin, List.append_nil, ih hdistinct hrest]

/-- Filing in a new data source adds a group for it. -/
theorem file_of_not_isIn {node : Node} {dataSources : List String}
    (h : ¬Name.isIn dataSources node.dataSource) (actuals : String → List String) :
    file node (dataSources.map fun name => (name, actuals name)) =
      (dataSources.map fun name => (name, actuals name)) ++ [(node.dataSource, [node.table])] := by
  induction dataSources with
  | nil => rfl
  | cons first dataSources ih =>
    rw [Name.isIn_cons, not_or] at h
    have hnot : ¬node.isInDataSource first := fun heq => h.1 (isInDataSource_iff.1 heq).symm
    rw [List.map_cons, file, if_neg hnot, ih h.2, List.cons_append]

/-- After any nodes, each of their data sources has the physical tables that its nodes have. -/
theorem fileAll_eq (nodes : List Node) :
    fileAll nodes = (Name.distinct (nodes.map (·.dataSource))).map fun name =>
      (name, (nodes.filter (·.isInDataSource name)).map (·.table)) := by
  induction nodes using List.reverseRecOn with
  | nil => rfl
  | append_singleton nodes node ih =>
    have hstep : fileAll (nodes ++ [node]) = file node (fileAll nodes) := by
      rw [fileAll, List.foldl_append]
      rfl
    have htables (name : String) :
        ((nodes ++ [node]).filter (·.isInDataSource name)).map (·.table) =
          (nodes.filter (·.isInDataSource name)).map (·.table) ++
            if node.isInDataSource name then [node.table] else [] := by
      rw [List.filter_append, List.map_append, List.filter_cons]
      split <;> rfl
    rw [hstep, ih, List.map_append, List.map_singleton, Name.distinct_concat]
    simp only [htables]
    by_cases hin : Name.isIn (nodes.map (·.dataSource)) node.dataSource
    · rw [if_pos hin]
      exact file_of_isIn (Name.pairwise_distinct _) (Name.isIn_distinct.2 hin) _
    · have hold : ∀ name ∈ Name.distinct (nodes.map (·.dataSource)), ¬node.isInDataSource name :=
        fun name hname heq =>
          hin (Name.isIn_iff.2 ⟨name, Name.distinct_subset _ hname, (isInDataSource_iff.1 heq).symm⟩)
      have hnew : (nodes.filter (·.isInDataSource node.dataSource)).map (·.table) = [] := by
        rw [List.map_eq_nil_iff, List.filter_eq_nil_iff]
        intro other hother heq
        exact hin (isIn_dataSources_iff.2 ⟨other, hother, heq⟩)
      rw [if_neg hin, file_of_not_isIn (mt Name.isIn_distinct.1 hin), List.map_append,
        List.map_singleton, hnew, if_pos (isInDataSource_iff.2 rfl), List.nil_append]
      congr 1
      refine List.map_congr_left fun name hname => ?_
      rw [if_neg (hold name hname), List.append_nil]

/-- What was filed in a data source are the physical tables of its nodes, in their order. -/
theorem filedIn_fileAll (nodes : List Node) (dataSource : String) :
    filedIn (fileAll nodes) dataSource =
      (nodes.filter (·.isInDataSource dataSource)).map (·.table) := by
  rw [filedIn, fileAll_eq, List.find?_map, Option.map_map]
  cases hfind : (Name.distinct (nodes.map (·.dataSource))).find?
      ((fun group => Name.same group.1 dataSource) ∘ fun name =>
        (name, (nodes.filter (·.isInDataSource name)).map (·.table))) with
  | some name =>
    have hsame := List.find?_some hfind
    have hfold : Name.fold name = Name.fold dataSource := Name.same_iff.1 hsame
    simp [Node.isInDataSource, Name.same, hfold]
  | none =>
    have hnone : nodes.filter (·.isInDataSource dataSource) = [] := by
      rw [List.filter_eq_nil_iff]
      intro node hnode hin
      have hknown : Name.isIn (Name.distinct (nodes.map (·.dataSource))) dataSource :=
        Name.isIn_distinct.2 (isIn_dataSources_iff.2 ⟨node, hnode, hin⟩)
      obtain ⟨name, hname, hfold⟩ := Name.isIn_iff.1 hknown
      exact List.find?_eq_none.1 hfind name hname (Name.same_iff.2 hfold)
    rw [hnone]
    rfl

/-! ## Places -/

theorem pairwise_actualTables (hdistinct : table.nodes.Pairwise fun a b => a.key ≠ b.key)
    (dataSource : String) :
    (table.actualTables dataSource).Pairwise fun a b => Name.fold a ≠ Name.fold b := by
  refine List.pairwise_map.2 ((hdistinct.filter _).imp_of_mem fun {a b} ha hb hne heq => hne ?_)
  have ha := Name.same_iff.1 (List.mem_filter.1 ha).2
  have hb := Name.same_iff.1 (List.mem_filter.1 hb).2
  exact Prod.ext (ha.trans hb.symm) heq

/-- In one data source only one place has a name. -/
theorem place_unique (hdistinct : table.nodes.Pairwise fun a b => a.key ≠ b.key) {i j : Nat}
    {a b : String} (ha : (table.actualTables dataSource)[i]? = some a)
    (hb : (table.actualTables dataSource)[j]? = some b) (hfold : Name.fold a = Name.fold b) :
    i = j := by
  obtain ⟨hi, rfl⟩ := List.getElem?_eq_some_iff.1 ha
  obtain ⟨hj, rfl⟩ := List.getElem?_eq_some_iff.1 hb
  have hpairwise := List.pairwise_iff_getElem.1 (pairwise_actualTables hdistinct dataSource)
  rcases Nat.lt_trichotomy i j with hlt | heq | hgt
  · exact absurd hfold (hpairwise i j hi hj hlt)
  · exact heq
  · exact absurd hfold.symm (hpairwise j i hj hi hgt)

theorem placeOf_eq_some_iff (hdistinct : table.nodes.Pairwise fun a b => a.key ≠ b.key)
    {place : Nat} :
    table.placeOf dataSource actual = some place ↔
      ∃ configured, (table.actualTables dataSource)[place]? = some configured ∧
        Name.fold configured = Name.fold actual := by
  rw [placeOf, List.findIdx?_eq_some_iff_getElem]
  constructor
  · rintro ⟨hlt, hsame, _⟩
    exact ⟨_, List.getElem?_eq_getElem hlt, Name.same_iff.1 hsame⟩
  · rintro ⟨configured, hconfigured, hfold⟩
    obtain ⟨hlt, rfl⟩ := List.getElem?_eq_some_iff.1 hconfigured
    refine ⟨hlt, Name.same_iff.2 hfold, fun j hj hsame => ?_⟩
    -- an earlier place of the name would be the same place
    have hlt' := Nat.lt_trans hj hlt
    have heq := place_unique hdistinct (List.getElem?_eq_getElem hlt') hconfigured
      ((Name.same_iff.1 hsame).trans hfold.symm)
    omega

theorem placeOf_eq_none_iff :
    table.placeOf dataSource actual = none ↔ ¬Name.isIn (table.actualTables dataSource) actual := by
  rw [placeOf, List.findIdx?_eq_none_iff, Name.isIn_iff]
  simp only [Name.same, beq_eq_false_iff_ne, not_exists, not_and, ne_eq]

/-- A node has the place that is as far as there are nodes of its data source before it. -/
theorem getElem?_actualTables {before after : List Node} {node : Node}
    (hnodes : table.nodes = before ++ node :: after) (hin : node.isInDataSource dataSource) :
    (table.actualTables dataSource)[before.countP (·.isInDataSource dataSource)]? =
      some node.table := by
  have hfilter : table.nodes.filter (·.isInDataSource dataSource) =
      before.filter (·.isInDataSource dataSource) ++
        node :: after.filter (·.isInDataSource dataSource) := by
    simp [hnodes, hin]
  rw [actualTables, hfilter, List.getElem?_map, List.countP_eq_length_filter,
    List.getElem?_append_right (Nat.le_refl _), Nat.sub_self]
  rfl

/-! ## Groups -/

theorem exists_placeOf_iff : (∃ place, table.placeOf dataSource actual = some place) ↔
    ∃ node ∈ table.nodes, node.same ⟨dataSource, actual⟩ := by
  rw [← Option.isSome_iff_exists, Option.isSome_iff_ne_none, ne_eq, placeOf_eq_none_iff, not_not,
    Name.isIn_iff, actualTables]
  simp only [List.mem_map, List.mem_filter, isInDataSource_iff, Node.same, Node.key, beq_iff_eq,
    Prod.mk.injEq]
  grind

theorem groups_eq (table : Table) :
    table.groups = (table.names .database).map fun name =>
      (name, (table.nodes.filter (·.isInDataSource name)).map fun node => ⟨name, node.table⟩) := by
  simp [groups, actualTables]

/-- The groups have all nodes, each once. -/
theorem groups_perm (table : Table) :
    ((table.groups.flatMap (·.2)).map Node.underFolded).Perm
      (table.nodes.map Node.underFolded) := by
  have hparts : ((table.names .database).flatMap fun name =>
      table.nodes.filter (·.isInDataSource name)).Perm table.nodes := by
    refine flatMap_filter_perm ((Name.pairwise_distinct _).imp fun hne node _ hin => ?_) ?_
    · rw [Bool.eq_false_iff]
      intro hother
      exact hne ((isInDataSource_iff.1 hin).symm.trans (isInDataSource_iff.1 hother))
    · intro node hnode
      have hknown : Name.isIn (table.names .database) node.dataSource :=
        Name.isIn_distinct.2 (Name.isIn_of_mem (List.mem_map_of_mem hnode))
      obtain ⟨name, hname, hfold⟩ := Name.isIn_iff.1 hknown
      exact ⟨name, hname, isInDataSource_iff.2 hfold.symm⟩
  have hfolded (name : String) :
      ((table.nodes.filter (·.isInDataSource name)).map fun node =>
        (⟨name, node.table⟩ : Node)).map Node.underFolded =
      (table.nodes.filter (·.isInDataSource name)).map Node.underFolded := by
    rw [List.map_map]
    refine List.map_congr_left fun node hnode => ?_
    have hin := isInDataSource_iff.1 (List.mem_filter.1 hnode).2
    simp [Node.underFolded, hin]
  rw [groups_eq, List.flatMap_map, List.map_flatMap]
  simp only [hfolded]
  rw [← List.map_flatMap]
  exact hparts.map _

/-- The nodes of a table are grouped with none lost, repeated or out of order. -/
structure Grouped (table : Table) : Prop where
  /-- A node has a place, in any spelling, and nothing else has one. -/
  placed : ∀ dataSource actual, (∃ place, table.placeOf dataSource actual = some place) ↔
    ∃ node ∈ table.nodes, node.same ⟨dataSource, actual⟩
  place : ∀ before node after, table.nodes = before ++ node :: after →
    ∀ dataSource actual, node.same ⟨dataSource, actual⟩ →
      table.placeOf dataSource actual = some (before.countP (·.isInDataSource dataSource)) ∧
      (table.actualTables dataSource)[before.countP (·.isInDataSource dataSource)]? =
        some node.table
  /-- There is one group for each data source, in the order of their first nodes. -/
  dataSources : table.groups.map (Name.fold ·.1) =
    (table.nodes.map (Name.fold ·.dataSource)).eraseDups
  spelling : ∀ group ∈ table.groups,
    (table.nodes.find? (·.isInDataSource group.1)).map (·.dataSource) = some group.1
  order : ∀ group ∈ table.groups, group.2 =
    (table.nodes.filter (·.isInDataSource group.1)).map fun node => ⟨group.1, node.table⟩
  together : ((table.groups.flatMap (·.2)).map Node.underFolded).Perm
    (table.nodes.map Node.underFolded)
  /-- The groups are what filing one node after another leads to. -/
  filed : table.groups.map (fun group => (group.1, group.2.map (·.table))) = fileAll table.nodes
  found : ∀ dataSource, table.actualTables dataSource = filedIn (fileAll table.nodes) dataSource

theorem grouped (hdistinct : table.nodes.Pairwise fun a b => a.key ≠ b.key) : table.Grouped where
  placed _ _ := exists_placeOf_iff
  place before node after hnodes dataSource actual hsame := by
    have hkey : node.key = (Name.fold dataSource, Name.fold actual) := beq_iff_eq.1 hsame
    have hplace := getElem?_actualTables hnodes
      (isInDataSource_iff.2 (congrArg Prod.fst hkey) : node.isInDataSource dataSource)
    exact ⟨(placeOf_eq_some_iff hdistinct).2 ⟨_, hplace, congrArg Prod.snd hkey⟩, hplace⟩
  dataSources := by
    have hnames : table.groups.map (·.1) = table.names .database := by
      simp [groups_eq, Function.comp_def]
    calc table.groups.map (Name.fold ·.1)
        = (table.groups.map (·.1)).map Name.fold := by rw [List.map_map]; rfl
      _ = (table.names .database).map Name.fold := by rw [hnames]
      _ = ((table.nodes.map (·.at .database)).map Name.fold).eraseDups :=
        Name.map_fold_distinct _
      _ = (table.nodes.map (Name.fold ·.dataSource)).eraseDups := by rw [List.map_map]; rfl
  spelling group hgroup := by
    rw [groups_eq] at hgroup
    obtain ⟨name, hname, rfl⟩ := List.mem_map.1 hgroup
    have hfirst := Name.find?_of_mem_distinct hname
    rw [Name.find?, List.find?_map] at hfirst
    exact hfirst
  order group hgroup := by
    rw [groups_eq] at hgroup
    obtain ⟨name, _, rfl⟩ := List.mem_map.1 hgroup
    rfl
  together := groups_perm table
  filed := by
    rw [fileAll_eq, groups_eq, List.map_map]
    simp [Function.comp_def, names, Node.at]
  found dataSource := (filedIn_fileAll table.nodes dataSource).symm

end Table

end Sharding
