import Sharding.Proofs.Algorithm.Restatement
import Sharding.Proofs.Restatement
import Sharding.Proofs.Strategy.Resolve
/-!
# Restated queries leave the same names

A strategy on one column goes by the first predicate about it, one on several columns keeps the last
for each of them. In a query with one predicate for a column the first is the last, and it is found
under every order and spelling.
-/

namespace Sharding

open Outcome Algorithm

variable {query others : List Predicate}

theorem SaidOnce.find?_eq_some_iff (honce : SaidOnce query) {column : String} {p : Predicate} :
    query.find? (·.isAbout column) = some p ↔ p ∈ query ∧ p.isAbout column := by
  constructor
  · intro h
    exact ⟨List.mem_of_find?_eq_some h, List.find?_some h⟩
  · rintro ⟨hp, habout⟩
    have hfound : (query.find? (·.isAbout column)).isSome := List.find?_isSome.2 ⟨p, hp, habout⟩
    obtain ⟨q, hq⟩ := Option.isSome_iff_exists.1 hfound
    rw [hq, honce q (List.mem_of_find?_eq_some hq) p hp column (List.find?_some hq) habout]

/-- The predicate that is found for a column is restated by the one found for it. -/
theorem SayTheSame.find?_rel (h : SayTheSame query others) (honce : SaidOnce query)
    (column : String) :
    Option.Rel Predicate.Restates (query.find? (·.isAbout column))
      (others.find? (·.isAbout column)) := by
  cases hother : others.find? (·.isAbout column) with
  | none =>
    have hquery : query.find? (·.isAbout column) = none := by
      rw [List.find?_eq_none] at hother ⊢
      intro p hp
      obtain ⟨q, hq, hpq⟩ := h.restated p hp
      rw [hpq.isAbout_eq]
      exact hother q hq
    rw [hquery]
    exact .none
  | some q =>
    obtain ⟨p, hp, hpq⟩ := h.restates q (List.mem_of_find?_eq_some hother)
    have habout : p.isAbout column := hpq.isAbout_eq column ▸ List.find?_some hother
    rw [honce.find?_eq_some_iff.2 ⟨hp, habout⟩]
    exact .some hpq

/-- Entries that predicates make for the columns they are about make alike dictionaries if restated
predicates make alike entries. -/
theorem SayTheSame.ofList_filterMap_alike {α : Type} {R : α → α → Prop}
    {entry : Predicate → Option (String × α)}
    (habout : ∀ {p k a}, entry p = some (k, a) → p.isAbout k)
    (hrestated : ∀ {p q}, p.Restates q →
      Option.Rel (fun a b => a.1 = b.1 ∧ R a.2 b.2) (entry p) (entry q))
    (h : SayTheSame query others) (honce : SaidOnce query) :
    Dictionary.Alike R (.ofList (query.filterMap entry)) (.ofList (others.filterMap entry)) := by
  apply Dictionary.ofList_alike
  · intro k a b ha hb
    obtain ⟨p, hp, hpa⟩ := List.mem_filterMap.1 ha
    obtain ⟨q, hq, hqb⟩ := List.mem_filterMap.1 hb
    cases honce p hp q hq k (habout hpa) (habout hqb)
    cases hpa.symm.trans hqb
    rfl
  · intro k a ha
    obtain ⟨p, hp, hpa⟩ := List.mem_filterMap.1 ha
    obtain ⟨q, hq, hpq⟩ := h.restated p hp
    obtain ⟨⟨_, b⟩, hqb, rfl, hab⟩ := exists_of_rel_some (hpa ▸ hrestated hpq)
    exact ⟨b, List.mem_filterMap.2 ⟨q, hq, hqb⟩, hab⟩
  · intro k b hb
    obtain ⟨q, hq, hqb⟩ := List.mem_filterMap.1 hb
    obtain ⟨p, hp, hpq⟩ := h.restates q hq
    obtain ⟨⟨_, a⟩, hpa, rfl, hab⟩ := exists_of_rel_some_right (hqb ▸ hrestated hpq)
    exact ⟨a, List.mem_filterMap.2 ⟨p, hp, hpa⟩, hab⟩

namespace Strategy

/-! ## One column -/

/-- Only the targets of the values count, not which value has which. -/
theorem standardTargets_of_sameResults {column : String} {algorithm : Algorithm.Standard}
    (halgorithm : algorithm.BuiltIn) (hcheck : algorithm.check = .ok ()) {available : List String}
    {table : String} {values others : List Value}
    (hsame : SameMembers (values.map fun v => algorithm.precise available ⟨table, column, v⟩)
      (others.map fun v => algorithm.precise available ⟨table, column, v⟩)) (own other : String) :
    Agree SameNames (standardTargets column algorithm available (.list table own values))
      (standardTargets column algorithm available (.list table other others)) := by
  have htargets := Agree.mapM_of_sameResults hsame fun _ _ => halgorithm.kind_of_precise hcheck
  apply htargets.bind
  intro targets found hfound
  exact sameNames_of_sameMembers (hfound.filterMap id)

theorem standardTargets_restated {column : String} {algorithm : Algorithm.Standard}
    (halgorithm : algorithm.BuiltIn) (hcheck : algorithm.check = .ok ()) (available : List String)
    {p q : Predicate} (h : p.Restates q) :
    Agree SameNames (standardTargets column algorithm available p)
      (standardTargets column algorithm available q) := by
  cases h with
  | @list table other own same values others tables columns members =>
    have htable : standardTargets column algorithm available (.list other same others) =
        standardTargets column algorithm available (.list table same others) := by
      simp only [standardTargets, halgorithm.precise_eq available other table]
    rw [htable]
    exact standardTargets_of_sameResults halgorithm hcheck (members.map _) own same
  | @range table other _ _ interval tables columns =>
    simp only [standardTargets, halgorithm.range_eq available other table]
    exact Agree.refl (fun _ _ => Iff.rfl) _
  | hint tables members => exact fun _ => Iff.rfl

/-! ## Several columns -/

theorem isAbout_of_listed {columns : List String} {p : Predicate} {k : String}
    {values : List Value} (h : listed columns p = some (k, values)) : p.isAbout k := by
  obtain ⟨table, column, rfl, hfind⟩ := listed_eq_some_iff.1 h
  exact Predicate.isAbout_iff.2 ⟨rfl, List.find?_some hfind⟩

theorem isAbout_of_ranged {columns : List String} {p : Predicate} {k : String}
    {interval : Interval} (h : ranged columns p = some (k, interval)) : p.isAbout k := by
  obtain ⟨table, column, rfl, hfind⟩ := ranged_eq_some_iff.1 h
  exact Predicate.isAbout_iff.2 ⟨rfl, List.find?_some hfind⟩

theorem listed_rel (columns : List String) {p q : Predicate} (h : p.Restates q) :
    Option.Rel (fun a b => a.1 = b.1 ∧ SameMembers a.2 b.2) (listed columns p)
      (listed columns q) := by
  cases h with
  | list tables own members =>
    rw [listed, listed, find?_same_congr columns own]
    cases columns.find? (Name.same _ ·) with
    | none => exact .none
    | some k => exact .some ⟨rfl, members⟩
  | _ => exact .none

theorem ranged_rel (columns : List String) {p q : Predicate} (h : p.Restates q) :
    Option.Rel (fun a b => a.1 = b.1 ∧ a.2 = b.2) (ranged columns p) (ranged columns q) := by
  cases h with
  | range interval tables own =>
    rw [ranged, ranged, find?_same_congr columns own]
    cases columns.find? (Name.same _ ·) with
    | none => exact .none
    | some k => exact .some ⟨rfl, rfl⟩
  | _ => exact .none

theorem gatherColumns_alike (columns : List String) (h : SayTheSame query others)
    (honce : SaidOnce query) :
    Dictionary.Alike SameMembers (gatherColumns columns query).values
        (gatherColumns columns others).values ∧
      Dictionary.Alike Eq (gatherColumns columns query).ranges
        (gatherColumns columns others).ranges := by
  obtain ⟨hvalues, hranges⟩ := gatherColumns_eq_ofList columns query
  obtain ⟨hsame, hsameRanges⟩ := gatherColumns_eq_ofList columns others
  rw [hvalues, hranges, hsame, hsameRanges]
  exact ⟨h.ofList_filterMap_alike isAbout_of_listed (listed_rel columns) honce,
    h.ofList_filterMap_alike isAbout_of_ranged (ranged_rel columns) honce⟩

/-! ## Hints -/

theorem mem_gatherHints {predicates : List Predicate} {v : Value} :
    v ∈ (gatherHints predicates).values ↔
      ∃ table values, .hint table values ∈ predicates ∧ v ∈ values := by
  induction predicates using List.reverseRecOn with
  | nil => simp [gatherHints]
  | append_singleton predicates last ih =>
    rw [gatherHints, List.foldl_append, List.foldl_cons, List.foldl_nil, ← gatherHints]
    cases last with
    | hint table values =>
      rw [gatherHint, List.mem_append, ih]
      simp [or_and_right, exists_or]
    | _ =>
      rw [gatherHint, ih]
      simp

theorem sameMembers_gatherHints (h : SayTheSame query others) :
    SameMembers (gatherHints query).values (gatherHints others).values := by
  intro v
  rw [mem_gatherHints, mem_gatherHints]
  constructor
  · rintro ⟨table, values, hp, hv⟩
    obtain ⟨q, hq, hpq⟩ := h.restated _ hp
    cases hpq with
    | hint tables members => exact ⟨_, _, hq, (members v).1 hv⟩
  · rintro ⟨table, values, hq, hv⟩
    obtain ⟨p, hp, hpq⟩ := h.restates _ hq
    cases hpq with
    | hint tables members => exact ⟨_, _, hp, (members v).2 hv⟩

/-! ## Any strategy -/

/-- The answers pick the same names. -/
def SamePicks (found same : Option (List String)) : Prop :=
  ∀ name, Picks found name ↔ Picks same name

theorem samePicks_some {targets same : List String} (h : SameNames targets same) :
    SamePicks (some targets) (some same) := by
  intro name
  rw [picks_some, picks_some]
  exact h name

/-- A strategy on one column goes by the predicate that is found for it. -/
theorem targets?_standard_agree {R : Predicate → Predicate → Prop} {column : String}
    {algorithm : Algorithm.Standard} {available : List String}
    (hfind : Option.Rel R (query.find? (·.isAbout column)) (others.find? (·.isAbout column)))
    (htargets : ∀ p q, R p q → Agree SameNames (standardTargets column algorithm available p)
      (standardTargets column algorithm available q)) :
    Agree SamePicks ((standard column algorithm).targets? available query)
      ((standard column algorithm).targets? available others) := by
  simp only [targets?]
  generalize query.find? (·.isAbout column) = found at hfind ⊢
  generalize others.find? (·.isAbout column) = same at hfind ⊢
  cases hfind with
  | none => exact fun _ => Iff.rfl
  | some hpq => exact (htargets _ _ hpq).map fun _ _ => samePicks_some

theorem BuiltIn.targets?_restated {strategy : Strategy} (hstrategy : strategy.BuiltIn)
    (available : List String) (h : SayTheSame query others) (honce : SaidOnce query) :
    Agree SamePicks (strategy.targets? available query) (strategy.targets? available others) := by
  have hnone : SamePicks Option.none Option.none := fun _ => Iff.rfl
  cases hstrategy with
  | @standard column algorithm halgorithm hcheck =>
    exact targets?_standard_agree (h.find?_rel honce column) fun _ _ =>
      standardTargets_restated halgorithm hcheck available
  | complex columns props =>
    obtain ⟨hvalues, hranges⟩ := gatherColumns_alike columns h honce
    have hnoRanges := hranges.isEmpty_eq
    simp only [targets?, hvalues.isEmpty_eq, hnoRanges]
    split
    · exact hnone
    · exact (complexInline_restated props available hvalues hnoRanges).map fun _ _ => samePicks_some
  | hint props =>
    have hvalues := sameMembers_gatherHints h
    simp only [targets?, hvalues.isEmpty_eq]
    split
    · exact hnone
    · exact (hintInline_restated props available hvalues).map fun _ _ => samePicks_some
  | none => exact hnone

theorem resolve_agree {strategy : Strategy} {available : List String}
    (h : Agree SamePicks (strategy.targets? available query) (strategy.targets? available others)) :
    Agree SameNames (strategy.resolve available query) (strategy.resolve available others) := by
  rcases h.ok_or_error with
    ⟨found, same, hfound, hsame, hpicks⟩ | ⟨fault, other, hfault, hother, hkind⟩
  · obtain ⟨names, hnames, hleft⟩ := resolve_of_ok hfound
    obtain ⟨kept, hkept, hright⟩ := resolve_of_ok hsame
    rw [hnames, hkept]
    intro name
    rw [hleft, hright, hpicks]
  · rw [resolve_of_error hfault, resolve_of_error hother]
    exact hkind

theorem BuiltIn.resolve_restated {strategy : Strategy} (hstrategy : strategy.BuiltIn)
    (available : List String) (h : SayTheSame query others) (honce : SaidOnce query) :
    Agree SameNames (strategy.resolve available query) (strategy.resolve available others) :=
  resolve_agree (hstrategy.targets?_restated available h honce)

end Strategy

end Sharding
