import Sharding.Proofs.Algorithm.Restatement
import Sharding.Proofs.Rule.Translation
/-!
# Tables bound together

No table is in two groups of a rule, so a name belongs to one group at most, the one that is found
for it. Names are bound together exactly where they belong to one group, whichever of them is asked
for it.
-/

namespace Sharding

namespace BindingGroup

theorem Disjoint.symm {a b : BindingGroup} (h : a.Disjoint b) : b.Disjoint a :=
  fun x hx y hy heq => h y hy x hx heq.symm

theorem contains_iff {group : BindingGroup} {name : String} :
    group.contains name ↔ ∃ member, group.IsMember name member := by
  rw [contains, Option.isSome_iff_ne_none, ne_eq, find?_eq_none_iff]
  simp only [not_forall, not_not]

theorem contains_congr (group : BindingGroup) {a b : String} (h : Name.fold a = Name.fold b) :
    group.contains a = group.contains b := by
  rw [contains, group.find?_congr (Name.same_iff.2 h), contains]

/-- Each of the names is that of a member, in whatever spelling. -/
def HoldsAll (group : BindingGroup) (names : List String) : Prop :=
  ∀ name ∈ names, ∃ member, group.IsMember name member

theorem holdsAll_iff {group : BindingGroup} {names : List String} :
    group.HoldsAll names ↔ names.all group.contains := by
  simp only [HoldsAll, ← contains_iff, List.all_eq_true]

theorem HoldsAll.append {group : BindingGroup} {names others : List String}
    (hnames : group.HoldsAll names) (hothers : group.HoldsAll others) :
    group.HoldsAll (names ++ others) := by
  intro name hname
  rcases List.mem_append.1 hname with hname | hname
  · exact hnames name hname
  · exact hothers name hname

theorem HoldsAll.of_sameNames {group : BindingGroup} {names others : List String}
    (h : group.HoldsAll names) (hsame : Algorithm.SameNames names others) :
    group.HoldsAll others := by
  intro name hname
  obtain ⟨given, hgiven, hfold⟩ := Name.isIn_iff.1 ((hsame name).2 (Name.isIn_of_mem hname))
  rw [← contains_iff, ← group.contains_congr hfold, contains_iff]
  exact h given hgiven

end BindingGroup

namespace Rule

variable {rule : Rule} {group other : BindingGroup} {name : String} {names others : List String}

theorem Consistent.member_name_eq (hrule : rule.Consistent) (hgroup : group ∈ rule.bindingGroups)
    {member : Table} (hmember : group.IsMember name member) : member.name = Name.fold name := by
  have htable := hrule.members_configured group hgroup member hmember.1
  rw [← (hrule.tables_wellFormed member htable).name_folded]
  exact Name.same_iff.1 hmember.2

/-- Groups that hold one name are the same group. -/
theorem Consistent.group_eq (hrule : rule.Consistent) (hgroup : group ∈ rule.bindingGroups)
    (hother : other ∈ rule.bindingGroups) {member member' : Table}
    (hmember : group.IsMember name member) (hmember' : other.IsMember name member') :
    group = other := by
  by_contra hne
  have : Std.Symm BindingGroup.Disjoint := ⟨fun _ _ h => h.symm⟩
  have hdisjoint := hrule.groups_disjoint.forall hgroup hother hne
  apply hdisjoint member hmember.1 member' hmember'.1
  rw [hrule.member_name_eq hgroup hmember, hrule.member_name_eq hother hmember']

/-- A group is not disjoint from itself. -/
theorem Consistent.groups_nodup (hrule : rule.Consistent) : rule.bindingGroups.Nodup := by
  refine hrule.groups_disjoint.imp_of_mem ?_
  rintro group _ hgroup _ hdisjoint rfl
  have hlength := (hrule.groups_wellFormed group hgroup).two_le_length
  have hpos : 0 < group.members.length := by omega
  obtain ⟨member, hmember⟩ := List.exists_mem_of_length_pos hpos
  exact hdisjoint member hmember member hmember rfl

theorem Consistent.findGroup?_eq_some_iff (hrule : rule.Consistent) :
    rule.findGroup? name = some group ↔
      group ∈ rule.bindingGroups ∧ ∃ member, group.IsMember name member := by
  constructor
  · intro h
    have hcontains := List.find?_some h
    exact ⟨List.mem_of_find?_eq_some h, BindingGroup.contains_iff.1 hcontains⟩
  · rintro ⟨hgroup, member, hmember⟩
    have hfound : (rule.findGroup? name).isSome :=
      List.find?_isSome.2 ⟨group, hgroup, BindingGroup.contains_iff.2 ⟨member, hmember⟩⟩
    obtain ⟨found, hfound⟩ := Option.isSome_iff_exists.1 hfound
    have hcontains := List.find?_some hfound
    obtain ⟨member', hmember'⟩ := BindingGroup.contains_iff.1 hcontains
    rw [hfound, hrule.group_eq (List.mem_of_find?_eq_some hfound) hgroup hmember' hmember]

/-- The members of a group are tables of the rule. -/
theorem Consistent.isSome_findTable? (hrule : rule.Consistent)
    (hgroup : group ∈ rule.bindingGroups) {member : Table} (hmember : group.IsMember name member) :
    (rule.findTable? name).isSome := by
  have htable := hrule.members_configured group hgroup member hmember.1
  rw [hrule.findTable?_eq_some htable hmember.2]
  rfl

theorem Consistent.allBound_iff (hrule : rule.Consistent) :
    rule.allBound names ↔ names ≠ [] ∧ ∃ group ∈ rule.bindingGroups, group.HoldsAll names := by
  cases names with
  | nil => simp [allBound]
  | cons first names =>
    constructor
    · intro h
      simp only [allBound] at h
      cases hfound : rule.findGroup? first with
      | none => simp [hfound] at h
      | some group =>
        rw [hfound] at h
        obtain ⟨hgroup, _⟩ := hrule.findGroup?_eq_some_iff.1 hfound
        refine ⟨List.cons_ne_nil _ _, group, hgroup, fun name hname => ?_⟩
        have hname := List.all_eq_true.1 h name hname
        exact BindingGroup.contains_iff.1 (Bool.and_eq_true_iff.1 hname).2
    · rintro ⟨_, group, hgroup, hholds⟩
      -- the group of the first name is the one that holds them all
      simp only [allBound]
      rw [hrule.findGroup?_eq_some_iff.2 ⟨hgroup, hholds first List.mem_cons_self⟩]
      refine List.all_eq_true.2 fun name hname => ?_
      obtain ⟨member, hmember⟩ := hholds name hname
      rw [hrule.isSome_findTable? hgroup hmember, BindingGroup.contains_iff.2 ⟨member, hmember⟩]
      rfl

/-- Of all the groups only one holds names that are bound together. -/
theorem Consistent.filter_groups (hrule : rule.Consistent) (hgroup : group ∈ rule.bindingGroups)
    (hne : names ≠ []) (hholds : group.HoldsAll names) :
    rule.bindingGroups.filter (fun other => names.all other.contains) = [group] := by
  obtain ⟨first, hfirst⟩ := List.exists_mem_of_ne_nil names hne
  obtain ⟨member, hmember⟩ := hholds first hfirst
  have honly : ∀ other, other ∈ rule.bindingGroups.filter (fun other =>
      names.all other.contains) ↔ other = group := by
    intro other
    rw [List.mem_filter, ← BindingGroup.holdsAll_iff]
    constructor
    · rintro ⟨hother, hholds'⟩
      obtain ⟨member', hmember'⟩ := hholds' first hfirst
      exact hrule.group_eq hother hgroup hmember' hmember
    · rintro rfl
      exact ⟨hgroup, hholds⟩
  apply List.perm_singleton.1
  rw [List.perm_ext_iff_of_nodup (hrule.groups_nodup.filter _) (List.nodup_singleton group)]
  simp only [honly, List.mem_singleton, implies_true]

theorem Consistent.allBound_of_sameNames (hrule : rule.Consistent)
    (hsame : Algorithm.SameNames names others) (h : rule.allBound names) :
    rule.allBound others := by
  obtain ⟨hne, group, hgroup, hholds⟩ := hrule.allBound_iff.1 h
  obtain ⟨first, hfirst⟩ := List.exists_mem_of_ne_nil names hne
  obtain ⟨other, hother, _⟩ := Name.isIn_iff.1 ((hsame first).1 (Name.isIn_of_mem hfirst))
  exact hrule.allBound_iff.2
    ⟨List.ne_nil_of_mem hother, group, hgroup, hholds.of_sameNames hsame⟩

/-- Names that are bound together and share one with others so bound are bound with all of them. -/
theorem Consistent.allBound_append (hrule : rule.Consistent) (hnames : rule.allBound names)
    (hothers : rule.allBound others) (hshared : ∃ a ∈ names, ∃ b ∈ others, Name.same a b) :
    rule.allBound (names ++ others) := by
  obtain ⟨a, ha, b, hb, hsame⟩ := hshared
  obtain ⟨hne, group, hgroup, hholds⟩ := hrule.allBound_iff.1 hnames
  obtain ⟨_, other, hother, hholds'⟩ := hrule.allBound_iff.1 hothers
  obtain ⟨member, hmember⟩ := hholds a ha
  obtain ⟨member', hmember', hname⟩ := hholds' b hb
  have hmember' : other.IsMember a member' :=
    ⟨hmember', Name.same_iff.2 ((Name.same_iff.1 hname).trans (Name.same_iff.1 hsame).symm)⟩
  -- the shared name makes both groups one
  rw [← hrule.group_eq hgroup hother hmember hmember'] at hholds'
  exact hrule.allBound_iff.2
    ⟨List.append_ne_nil_of_left_ne_nil hne _, group, hgroup, hholds.append hholds'⟩

variable {catalog : Catalog} {config : Configuration.Rule} {dataSources : List String}

/-- Names are bound together exactly where they are some names of one group, in whatever spelling.
There is one such group then, the one that is found for each of them. So it does not matter how the
names are ordered, repeated or spelled; a member alone is bound; and lists that share a name are
bound together if each of them is. -/
theorem allBound_groups (h : build catalog config dataSources = .ok rule) :
    (∀ names, rule.allBound names ↔
        names ≠ [] ∧ ∃ group ∈ rule.bindingGroups, group.HoldsAll names) ∧
      (∀ names, rule.allBound names → ∃ group,
        rule.bindingGroups.filter (fun other => names.all other.contains) = [group] ∧
          ∀ name ∈ names, rule.findGroup? name = some group) ∧
      (∀ names others, Algorithm.SameNames names others →
        rule.allBound names = rule.allBound others) ∧
      (∀ group ∈ rule.bindingGroups, ∀ name member, group.IsMember name member →
        rule.allBound [name]) ∧
      ∀ names others, rule.allBound names → rule.allBound others →
        (∃ a ∈ names, ∃ b ∈ others, Name.same a b) → rule.allBound (names ++ others) := by
  have hrule := consistent_of_build h
  refine ⟨fun names => hrule.allBound_iff, ?_, ?_, ?_, ?_⟩
  · intro names hbound
    obtain ⟨hne, group, hgroup, hholds⟩ := hrule.allBound_iff.1 hbound
    refine ⟨group, hrule.filter_groups hgroup hne hholds, fun name hname => ?_⟩
    exact hrule.findGroup?_eq_some_iff.2 ⟨hgroup, hholds name hname⟩
  · intro names others hsame
    rw [Bool.eq_iff_iff]
    exact ⟨hrule.allBound_of_sameNames hsame,
      hrule.allBound_of_sameNames fun name => (hsame name).symm⟩
  · intro group hgroup name member hmember
    refine hrule.allBound_iff.2 ⟨List.cons_ne_nil _ _, group, hgroup, fun other hother => ?_⟩
    cases List.mem_singleton.1 hother
    exact ⟨member, hmember⟩
  · intro names others hnames hothers hshared
    exact hrule.allBound_append hnames hothers hshared

theorem allBound_groups_shop :
    build Catalog.builtIn shopConfiguration ["a", "b"] = .ok shop ∧
      shop.allBound ["ORDERS", "items", "orders"] = true ∧
      shop.findGroup? "items" = some ⟨[orders, items]⟩ ∧
      shop.allBound ["orders", "parcels"] = false := by
  obtain ⟨hiff, hfound, hsame, hsingle, hconcat⟩ := allBound_groups build_shop
  have hgroup : ⟨[orders, items]⟩ ∈ shop.bindingGroups := List.mem_singleton_self _
  have horders : BindingGroup.IsMember ⟨[orders, items]⟩ "orders" orders :=
    ⟨List.mem_cons_self, Name.same_iff.2 rfl⟩
  have hupper : BindingGroup.IsMember ⟨[orders, items]⟩ "ORDERS" orders :=
    ⟨List.mem_cons_self, (Name.same_eq _ _).trans rfl⟩
  have hitems : BindingGroup.IsMember ⟨[orders, items]⟩ "items" items :=
    ⟨List.mem_cons_of_mem _ List.mem_cons_self, Name.same_iff.2 rfl⟩
  have hbound : shop.allBound ["ORDERS", "items", "orders"] := by
    refine (hiff _).2 ⟨List.cons_ne_nil _ _, _, hgroup, fun name hname => ?_⟩
    simp only [List.mem_cons, List.not_mem_nil, or_false] at hname
    rcases hname with rfl | rfl | rfl
    · exact ⟨orders, hupper⟩
    · exact ⟨items, hitems⟩
    · exact ⟨orders, horders⟩
  refine ⟨build_shop, hbound, ?_, ?_⟩
  · obtain ⟨group, honly, hfind⟩ := hfound _ hbound
    have hmem : group ∈ shop.bindingGroups := List.mem_of_mem_filter (honly ▸ List.mem_cons_self)
    rw [← List.mem_singleton.1 hmem]
    exact hfind "items" (List.mem_cons_of_mem _ List.mem_cons_self)
  · rw [Bool.eq_false_iff, ne_eq, hiff]
    rintro ⟨_, group, hmem, hholds⟩
    cases List.mem_singleton.1 hmem
    obtain ⟨member, hmember, hname⟩ := hholds "parcels" (List.mem_cons_of_mem _ List.mem_cons_self)
    have hunlike : ∀ table ∈ [orders, items], Name.same table.name "parcels" = false := by
      decide +kernel
    rw [hunlike member hmember] at hname
    cases hname

end Rule

end Sharding
