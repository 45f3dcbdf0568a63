import Sharding.Proofs.Dictionary
import Sharding.Proofs.Rule.Consistency
import Sharding.Proofs.Table.Grouping
/-!
# Translation between bound tables

In a data source a table of one member of a group stands for the table at its place among those of
another member. The members have the same number of tables there and none of them twice, so the
tables translate into each other one to one.
-/

namespace Sharding

open Outcome

namespace BindingGroup

variable {group : BindingGroup} {dataSource source actual target : String}

/-- The table is the member of the group that goes by the name, in whatever spelling. -/
def IsMember (group : BindingGroup) (name : String) (table : Table) : Prop :=
  table ∈ group.members ∧ Name.same table.name name

/-- The members of a group have distinct names in normal form, and each has distinct nodes. -/
structure Sound (group : BindingGroup) : Prop extends group.WellFormed where
  names_folded : ∀ member ∈ group.members, Name.fold member.name = member.name
  nodes_distinct : ∀ member ∈ group.members, member.nodes.Pairwise fun a b => a.key ≠ b.key

theorem Sound.name_eq (hgroup : group.Sound) {name : String} {member : Table}
    (hmember : group.IsMember name member) : member.name = Name.fold name :=
  (hgroup.names_folded member hmember.1).symm.trans (Name.same_iff.1 hmember.2)

theorem Sound.eq_of_name_eq (hgroup : group.Sound) {a b : Table} (ha : a ∈ group.members)
    (hb : b ∈ group.members) (h : a.name = b.name) : a = b :=
  List.inj_on_of_nodup_map (List.pairwise_map.2 hgroup.names_distinct) ha hb h

theorem isMember_of_find? {name : String} {member : Table}
    (h : group.find? name = some member) : group.IsMember name member := by
  have hname := List.find?_some h
  exact ⟨List.mem_of_find?_eq_some h, hname⟩

theorem find?_eq_none_iff {name : String} :
    group.find? name = none ↔ ∀ member, ¬group.IsMember name member := by
  simp [find?, IsMember]

theorem Sound.find?_eq_some_iff (hgroup : group.Sound) {name : String} {member : Table} :
    group.find? name = some member ↔ group.IsMember name member := by
  refine ⟨isMember_of_find?, fun h => ?_⟩
  cases hfind : group.find? name with
  | none => exact absurd h (find?_eq_none_iff.1 hfind member)
  | some found =>
    have hfound := isMember_of_find? hfind
    have hname := (hgroup.name_eq hfound).trans (hgroup.name_eq h).symm
    rw [hgroup.eq_of_name_eq hfound.1 h.1 hname]

/-- A translation stands at the place of what it translates. -/
theorem Sound.translate_eq_ok_iff (hgroup : group.Sound) {first second : Table}
    (hfirst : group.IsMember source first) (hsecond : group.IsMember target second)
    {bound : String} :
    group.translate dataSource source actual target = .ok bound ↔
      ∃ (place : Nat) (configured : String),
        (first.actualTables dataSource)[place]? = some configured ∧
        Name.fold configured = Name.fold actual ∧
        (second.actualTables dataSource)[place]? = some bound := by
  have hdistinct := hgroup.nodes_distinct first hfirst.1
  have hcounts := hgroup.counts_eq first hfirst.1 second hsecond.1 dataSource
  simp only [translate, hgroup.find?_eq_some_iff.2 hfirst, hgroup.find?_eq_some_iff.2 hsecond,
    Option.bind_some]
  cases hplace : first.placeOf dataSource actual with
  | none =>
    constructor
    · intro h
      cases h
    · rintro ⟨place, configured, hconfigured, hfold, _⟩
      rw [(Table.placeOf_eq_some_iff hdistinct).2 ⟨configured, hconfigured, hfold⟩] at hplace
      cases hplace
  | some place =>
    obtain ⟨configured, hconfigured, hfold⟩ := (Table.placeOf_eq_some_iff hdistinct).1 hplace
    have hlt : place < (second.actualTables dataSource).length :=
      hcounts ▸ (List.getElem?_eq_some_iff.1 hconfigured).1
    simp only [List.getElem?_eq_getElem hlt, Except.ok.injEq]
    constructor
    · rintro rfl
      exact ⟨place, configured, hconfigured, hfold, List.getElem?_eq_getElem hlt⟩
    · rintro ⟨other, _, hother, hsame, hbound⟩
      cases Table.place_unique hdistinct hother hconfigured (hsame.trans hfold.symm)
      rw [List.getElem?_eq_getElem hlt] at hbound
      exact Option.some.inj hbound

theorem kind_of_translate {fault : Fault}
    (h : group.translate dataSource source actual target = .error fault) :
    fault.kind = .configuration := by
  unfold translate at h
  dsimp only at h
  split at h
  · cases h
    rfl
  · split at h
    · cases h
      rfl
    · split at h <;> cases h
      rfl

/-- Only a table of a member is translated, and only to another member. -/
theorem members_of_translate {bound : String}
    (h : group.translate dataSource source actual target = .ok bound) :
    (∃ first, group.IsMember source first ∧ Name.isIn (first.actualTables dataSource) actual) ∧
      ∃ second, group.IsMember target second := by
  unfold translate at h
  dsimp only at h
  split at h
  · cases h
  · next place hplace =>
    obtain ⟨first, hfirst, hplace⟩ := Option.bind_eq_some_iff.1 hplace
    refine ⟨⟨first, isMember_of_find? hfirst, ?_⟩, ?_⟩
    · by_contra hnot
      rw [Table.placeOf_eq_none_iff.2 hnot] at hplace
      cases hplace
    · split at h
      · cases h
      · next second hsecond => exact ⟨second, isMember_of_find? hsecond⟩

theorem Sound.exists_translate (hgroup : group.Sound) {first second : Table}
    (hfirst : group.IsMember source first) (hsecond : group.IsMember target second)
    {configured : String} (hconfigured : configured ∈ first.actualTables dataSource)
    (hsame : Name.same configured actual) :
    ∃ bound ∈ second.actualTables dataSource,
      group.translate dataSource source actual target = .ok bound ∧
        group.translate dataSource target bound source = .ok configured := by
  obtain ⟨place, hlt, hplace⟩ := List.getElem_of_mem hconfigured
  have hfound : (first.actualTables dataSource)[place]? = some configured :=
    List.getElem?_eq_some_iff.2 ⟨hlt, hplace⟩
  have hlt' : place < (second.actualTables dataSource).length :=
    hgroup.counts_eq first hfirst.1 second hsecond.1 dataSource ▸ hlt
  have hbound := List.getElem?_eq_getElem hlt'
  refine ⟨_, List.getElem_mem hlt', ?_, ?_⟩
  · exact (hgroup.translate_eq_ok_iff hfirst hsecond).2
      ⟨place, configured, hfound, Name.same_iff.1 hsame, hbound⟩
  · exact (hgroup.translate_eq_ok_iff hsecond hfirst).2 ⟨place, _, hbound, rfl, hfound⟩

theorem Sound.translate_translate (hgroup : group.Sound) {first second third : Table}
    (hfirst : group.IsMember source first) (hsecond : group.IsMember target second)
    {other : String} (hthird : group.IsMember other third) {bound : String}
    (h : group.translate dataSource source actual target = .ok bound) :
    group.translate dataSource target bound other =
      group.translate dataSource source actual other := by
  obtain ⟨place, configured, hconfigured, hfold, hbound⟩ :=
    (hgroup.translate_eq_ok_iff hfirst hsecond).1 h
  have hlt : place < (third.actualTables dataSource).length :=
    hgroup.counts_eq first hfirst.1 third hthird.1 dataSource ▸
      (List.getElem?_eq_some_iff.1 hconfigured).1
  have hlast := List.getElem?_eq_getElem hlt
  rw [(hgroup.translate_eq_ok_iff hsecond hthird).2 ⟨place, bound, hbound, rfl, hlast⟩,
    (hgroup.translate_eq_ok_iff hfirst hthird).2 ⟨place, configured, hconfigured, hfold, hlast⟩]

theorem Sound.translate_apart (hgroup : group.Sound) {first second : Table}
    (hfirst : group.IsMember source first) (hsecond : group.IsMember target second)
    {other bound otherBound : String}
    (h : group.translate dataSource source actual target = .ok bound)
    (hother : group.translate dataSource source other target = .ok otherBound)
    (hsame : Name.same bound otherBound) : Name.same actual other := by
  obtain ⟨place, configured, hconfigured, hfold, hbound⟩ :=
    (hgroup.translate_eq_ok_iff hfirst hsecond).1 h
  obtain ⟨place', configured', hconfigured', hfold', hbound'⟩ :=
    (hgroup.translate_eq_ok_iff hfirst hsecond).1 hother
  cases Table.place_unique (hgroup.nodes_distinct second hsecond.1) hbound hbound'
    (Name.same_iff.1 hsame)
  cases hconfigured.symm.trans hconfigured'
  exact Name.same_iff.2 (hfold.symm.trans hfold')

/-! ## The tables bound to one -/

theorem Sound.others_eq (hgroup : group.Sound) {name : String} {member : Table}
    (hmember : group.IsMember name member) :
    group.names.filter (fun other => !Name.same other name) = group.names.erase member.name := by
  have hnodup : group.names.Nodup := List.pairwise_map.2 hgroup.names_distinct
  rw [hnodup.erase_eq_filter]
  refine List.filter_congr fun other hother => ?_
  obtain ⟨table, htable, rfl⟩ := List.mem_map.1 hother
  rw [Name.same, hgroup.names_folded table htable, hgroup.name_eq hmember]
  rfl

/-- The tables bound to a table of a member are its translations to the other members. -/
theorem Sound.exists_boundTables (hgroup : group.Sound) {first : Table}
    (hfirst : group.IsMember source first) {configured : String}
    (hconfigured : configured ∈ first.actualTables dataSource)
    (hsame : Name.same configured actual) :
    ∃ tables, group.boundTables dataSource source actual = .ok tables ∧
      tables.keys.Perm (group.names.erase first.name) ∧
      ∀ name ∈ group.names.erase first.name, ∃ bound, tables.get? name = some bound ∧
        group.translate dataSource source actual name = .ok bound := by
  have hnodup : group.names.Nodup := List.pairwise_map.2 hgroup.names_distinct
  have hall : ∀ name ∈ group.names.erase first.name, ∃ entry : String × String,
      (do
        let bound ← group.translate dataSource source actual name
        .ok (name, bound)) = .ok entry := by
    intro name hname
    obtain ⟨second, hsecond, rfl⟩ := List.mem_map.1 (List.mem_of_mem_erase hname)
    obtain ⟨bound, _, hbound, _⟩ := hgroup.exists_translate hfirst
      ⟨hsecond, Name.same_iff.2 rfl⟩ hconfigured hsame
    exact ⟨(second.name, bound), bind_eq_ok.2 ⟨bound, hbound, rfl⟩⟩
  obtain ⟨entries, hentries⟩ := exists_mapM_iff.2 hall
  -- an entry is made of a name and of its translation
  have hmem : ∀ {name bound}, (name, bound) ∈ entries ↔ name ∈ group.names.erase first.name ∧
      group.translate dataSource source actual name = .ok bound := by
    intro name bound
    rw [mem_of_mapM hentries]
    simp [bind_eq_ok]
  have hget : ∀ name ∈ group.names.erase first.name, ∃ bound,
      (Dictionary.ofList entries).get? name = some bound ∧
        group.translate dataSource source actual name = .ok bound := by
    intro name hname
    obtain ⟨entry, hentry⟩ := hall name hname
    obtain ⟨bound, hbound, _⟩ := bind_eq_ok.1 hentry
    obtain ⟨kept, hkept⟩ := Dictionary.exists_get?_ofList (hmem.2 ⟨hname, hbound⟩)
    exact ⟨kept, hkept, (hmem.1 (Dictionary.mem_of_get?_ofList hkept)).2⟩
  refine ⟨.ofList entries, ?_, ?_, hget⟩
  · rw [boundTables, hgroup.others_eq hfirst]
    exact bind_eq_ok.2 ⟨entries, hentries, rfl⟩
  · rw [List.perm_ext_iff_of_nodup (Dictionary.keys_nodup _) (hnodup.erase _)]
    intro name
    rw [Dictionary.mem_keys_iff]
    constructor
    · rintro ⟨bound, hbound⟩
      exact (hmem.1 (Dictionary.mem_of_get?_ofList hbound)).1
    · intro hname
      obtain ⟨bound, hbound, _⟩ := hget name hname
      exact ⟨bound, hbound⟩

/-! ## Any spelling -/

theorem find?_congr (group : BindingGroup) {a b : String} (h : Name.same a b) :
    group.find? a = group.find? b := by
  simp only [find?, Name.same, Name.same_iff.1 h]

theorem translate_agree {dataSource' source' actual' target' : String}
    (hdataSource : Name.same dataSource dataSource') (hsource : Name.same source source')
    (hactual : Name.same actual actual') (htarget : Name.same target target') :
    Agree (· = ·) (group.translate dataSource source actual target)
      (group.translate dataSource' source' actual' target') := by
  have htables (table : Table) := table.actualTables_congr (Name.same_iff.1 hdataSource)
  have hplace (table : Table) :
      table.placeOf dataSource actual = table.placeOf dataSource' actual' := by
    simp only [Table.placeOf, htables, Name.same, Name.same_iff.1 hactual]
  simp only [translate, group.find?_congr hsource, group.find?_congr htarget, htables, hplace]
  cases (group.find? source').bind (·.placeOf dataSource' actual') with
  | none => exact rfl
  | some place =>
    cases group.find? target' with
    | none => exact rfl
    | some member =>
      dsimp only
      cases (member.actualTables dataSource')[place]? <;> exact rfl

theorem boundTables_agree {dataSource' source' actual' : String}
    (hdataSource : Name.same dataSource dataSource') (hsource : Name.same source source')
    (hactual : Name.same actual actual') :
    Agree (· = ·) (group.boundTables dataSource source actual)
      (group.boundTables dataSource' source' actual') := by
  have hothers : group.names.filter (fun name => !Name.same name source) =
      group.names.filter (fun name => !Name.same name source') := by
    simp only [Name.same, Name.same_iff.1 hsource]
  rw [boundTables, boundTables, hothers]
  apply Agree.bind (R := List.Forall₂ (· = ·))
  · apply Agree.mapM_same
    intro name
    apply (translate_agree hdataSource hsource hactual (Name.same_iff.2 rfl)).bind
    rintro bound _ rfl
    exact rfl
  · intro entries others h
    cases List.forall₂_eq_eq_eq ▸ h
    exact rfl

/-- In a data source the tables of the members of a group translate into each other one to one.
Data sources, members and tables go by any spelling. -/
structure OneToOne (group : BindingGroup) (dataSource : String) : Prop where
  there_and_back : ∀ {source target actual configured : String} {first second : Table},
    group.IsMember source first → group.IsMember target second →
    configured ∈ first.actualTables dataSource → Name.same configured actual →
    ∃ bound ∈ second.actualTables dataSource,
      group.translate dataSource source actual target = .ok bound ∧
        group.translate dataSource target bound source = .ok configured
  by_way : ∀ {source target other actual bound : String} {first second third : Table},
    group.IsMember source first → group.IsMember target second → group.IsMember other third →
    group.translate dataSource source actual target = .ok bound →
    group.translate dataSource target bound other = group.translate dataSource source actual other
  /-- Tables apart have translations apart. -/
  injective : ∀ {source target actual other bound otherBound : String},
    group.translate dataSource source actual target = .ok bound →
    group.translate dataSource source other target = .ok otherBound →
    ¬Name.same actual other → ¬Name.same bound otherBound
  /-- The bound tables of a table are its translations to the other members, one for each. -/
  boundTables : ∀ {source actual configured : String} {first : Table},
    group.IsMember source first →
    configured ∈ first.actualTables dataSource → Name.same configured actual →
    ∃ tables, group.boundTables dataSource source actual = .ok tables ∧
      tables.keys.Perm (group.names.erase first.name) ∧
      ∀ name ∈ group.names.erase first.name, ∃ bound, tables.get? name = some bound ∧
        group.translate dataSource source actual name = .ok bound
  refused : ∀ {source actual target : String},
    ((∀ member, ¬group.IsMember source member) ∨ (∀ member, ¬group.IsMember target member) ∨
      ∃ first, group.IsMember source first ∧ ¬Name.isIn (first.actualTables dataSource) actual) →
    ∃ fault, group.translate dataSource source actual target = .error fault ∧
      fault.kind = .configuration
  respelled : ∀ {dataSource' source source' actual actual' target target' : String},
    Name.same dataSource dataSource' → Name.same source source' → Name.same actual actual' →
    Name.same target target' →
    Agree (· = ·) (group.translate dataSource source actual target)
        (group.translate dataSource' source' actual' target') ∧
      Agree (· = ·) (group.boundTables dataSource source actual)
        (group.boundTables dataSource' source' actual')

end BindingGroup

namespace Rule

variable {catalog : Catalog} {config : Configuration.Rule} {names : List String} {rule : Rule}

theorem sound_of_build (h : build catalog config names = .ok rule) {group : BindingGroup}
    (hgroup : group ∈ rule.bindingGroups) : group.Sound := by
  have hrule := consistent_of_build h
  have hmembers (member : Table) (hmember : member ∈ group.members) :
      member.WellFormed rule.dataSources :=
    hrule.tables_wellFormed member (hrule.members_configured group hgroup member hmember)
  exact ⟨hrule.groups_wellFormed group hgroup,
    fun member hmember => (hmembers member hmember).name_folded,
    fun member hmember => (hmembers member hmember).nodes_distinct⟩

theorem translate_oneToOne (h : build catalog config names = .ok rule) {group : BindingGroup}
    (hgroup : group ∈ rule.bindingGroups) (dataSource : String) : group.OneToOne dataSource := by
  have hsound := sound_of_build h hgroup
  refine
    { there_and_back := fun hfirst hsecond => hsound.exists_translate hfirst hsecond
      by_way := fun hfirst hsecond hthird => hsound.translate_translate hfirst hsecond hthird
      injective := ?_
      boundTables := fun hfirst => hsound.exists_boundTables hfirst
      refused := ?_
      respelled := ?_ }
  · intro source target actual other bound otherBound hbound hotherBound hapart hsame
    obtain ⟨⟨first, hfirst, _⟩, second, hsecond⟩ := BindingGroup.members_of_translate hbound
    exact hapart (hsound.translate_apart hfirst hsecond hbound hotherBound hsame)
  · intro source actual target hnone
    cases htranslate : group.translate dataSource source actual target with
    | error fault => exact ⟨fault, rfl, BindingGroup.kind_of_translate htranslate⟩
    | ok bound =>
      obtain ⟨⟨first, hfirst, hactual⟩, second, hsecond⟩ :=
        BindingGroup.members_of_translate htranslate
      rcases hnone with hsource | htarget | ⟨member, hmember, hnot⟩
      · exact absurd hfirst (hsource first)
      · exact absurd hsecond (htarget second)
      · have hname := (hsound.name_eq hmember).trans (hsound.name_eq hfirst).symm
        rw [hsound.eq_of_name_eq hmember.1 hfirst.1 hname] at hnot
        exact absurd hactual hnot
  · intro _ _ _ _ _ _ _ hdataSource hsource hactual htarget
    exact ⟨BindingGroup.translate_agree hdataSource hsource hactual htarget,
      BindingGroup.boundTables_agree hdataSource hsource hactual⟩

theorem translate_oneToOne_shop :
    build Catalog.builtIn shopConfiguration ["a", "b"] = .ok shop ∧
      BindingGroup.OneToOne ⟨[orders, items]⟩ "b" ∧
      BindingGroup.translate ⟨[orders, items]⟩ "b" "ORDERS" "O1" "items" = .ok "i1" ∧
      BindingGroup.translate ⟨[orders, items]⟩ "b" "items" "i1" "ORDERS" = .ok "o1" := by
  have hgroup : ⟨[orders, items]⟩ ∈ shop.bindingGroups := List.mem_singleton_self _
  have honeToOne := translate_oneToOne build_shop hgroup "b"
  have hfirst : Name.same "ORDERS" "orders" :=
    (Name.same_eq _ _).trans rfl
  have hactual : Name.same "O1" "o1" :=
    (Name.same_eq _ _).trans rfl
  have htarget : Name.same "items" "items" := Name.same_iff.2 rfl
  have horders : BindingGroup.IsMember ⟨[orders, items]⟩ "ORDERS" orders :=
    ⟨List.mem_cons_self, Name.same_iff.2 (Name.same_iff.1 hfirst).symm⟩
  have hitems : BindingGroup.IsMember ⟨[orders, items]⟩ "items" items :=
    ⟨List.mem_cons_of_mem _ List.mem_cons_self, htarget⟩
  have hconfigured : "o1" ∈ orders.actualTables "b" := by decide +kernel
  obtain ⟨bound, _, hthere, hback⟩ := honeToOne.there_and_back horders hitems hconfigured
    (Name.same_iff.2 (Name.same_iff.1 hactual).symm)
  have hlower : BindingGroup.translate ⟨[orders, items]⟩ "b" "orders" "o1" "items" = .ok "i1" :=
    eq_ok_of_toOption (by decide +kernel)
  have hagree := (honeToOne.respelled (Name.same_iff.2 rfl) hfirst hactual htarget).1
  rw [hthere, hlower] at hagree
  have heq : bound = "i1" := hagree
  exact ⟨build_shop, honeToOne, heq ▸ hthere, heq ▸ hback⟩

end Rule

end Sharding
