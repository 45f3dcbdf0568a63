import Mathlib.Order.Bounds.Defs
import Sharding.Proofs.Algorithm.Targets
/-!
# Ranges and the values in them

The targets of a range are exactly those of the integers that lie in it. They come in the order of
the places at which the range first reaches them.
-/

namespace Sharding

namespace Name

variable {names available : List String}

theorem eq_of_fold_eq (h : available.Pairwise fun a b => fold a ≠ fold b) {a b : String}
    (ha : a ∈ available) (hb : b ∈ available) (heq : fold a = fold b) : a = b :=
  List.inj_on_of_nodup_map (List.pairwise_map.2 h) ha hb heq

/-- Among names that are apart, dropping repetitions leaves the same names. -/
theorem mem_distinct_iff (h : available.Pairwise fun a b => fold a ≠ fold b)
    (hnames : names ⊆ available) {name : String} : name ∈ distinct names ↔ name ∈ names := by
  constructor
  · intro hname
    exact distinct_subset names hname
  · intro hname
    obtain ⟨kept, hkept, hfold⟩ := isIn_iff.1 (isIn_distinct.2 (isIn_of_mem hname))
    have hsame := eq_of_fold_eq h (hnames (distinct_subset names hkept)) (hnames hname) hfold
    rwa [← hsame]

/-- Names that came in ascending order of their places keep the order of their first places. -/
theorem distinct_ascending (entries : List (String × Nat))
    (h : entries.Pairwise fun a b => a.2 < b.2) :
    (distinct (entries.map (·.1))).Pairwise fun a b =>
      ∀ e ∈ entries, fold e.1 = fold b →
        ∃ first ∈ entries, fold first.1 = fold a ∧ first.2 < e.2 := by
  match entries with
  | [] => exact .nil
  | (name, place) :: entries =>
    obtain ⟨hfirst, hrest⟩ := List.pairwise_cons.1 h
    let others := entries.filter fun e => fold e.1 != fold name
    have hothers : (entries.map (·.1)).filter (fun other => fold other != fold name) =
        others.map (·.1) := List.filter_map
    have ih := distinct_ascending others (hrest.filter _)
    rw [List.map_cons, distinct_cons, hothers]
    refine List.pairwise_cons.2 ⟨?_, ?_⟩
    · intro b hb e he heq
      obtain ⟨kept, hkept, rfl⟩ := List.mem_map.1 (distinct_subset _ hb)
      have hother : fold kept.1 ≠ fold name := by simpa using (List.mem_filter.1 hkept).2
      rcases List.mem_cons.1 he with rfl | he
      · exact absurd heq.symm hother
      · exact ⟨_, List.mem_cons_self, rfl, hfirst e he⟩
    · refine ih.imp_of_mem fun {a b} _ hb hlater e he heq => ?_
      obtain ⟨kept, hkept, rfl⟩ := List.mem_map.1 (distinct_subset _ hb)
      have hother : fold e.1 != fold name := heq ▸ (List.mem_filter.1 hkept).2
      rcases List.mem_cons.1 he with rfl | he
      · simp at hother
      · obtain ⟨first, hmem, hfold, hlt⟩ := hlater e (List.mem_filter.2 ⟨he, hother⟩) heq
        exact ⟨first, List.mem_cons_of_mem _ (List.mem_filter.1 hmem).1, hfold, hlt⟩
termination_by entries.length
decreasing_by exact Nat.lt_succ_of_le (List.length_filter_le _ entries)

end Name

namespace Algorithm

open Outcome

variable {partitions : List Partition} {available : List String}

/-- The target of a place whose partition meets a range, beside the place. -/
def metPlace (available : List String) (low high : Int) (entry : Partition × Nat) :
    Option (String × Nat) :=
  if entry.1.intersects low high then (targetAt available entry.2).map fun name => (name, entry.2)
  else none

def metPlaces (partitions : List Partition) (available : List String) (low high : Int) :
    List (String × Nat) :=
  partitions.zipIdx.filterMap (metPlace available low high)

theorem metPlace_eq_some_iff {low high : Int} {entry : Partition × Nat} {name : String}
    {place : Nat} : metPlace available low high entry = some (name, place) ↔
      entry.2 = place ∧ targetAt available place = some name ∧ entry.1.intersects low high := by
  simp only [metPlace, Option.ite_none_right_eq_some, Option.map_eq_some_iff, Prod.mk.injEq]
  constructor
  · rintro ⟨hmeets, _, hname, rfl, rfl⟩
    exact ⟨rfl, hname, hmeets⟩
  · rintro ⟨rfl, hname, hmeets⟩
    exact ⟨hmeets, name, hname, rfl, rfl⟩

theorem rangeTargets_eq (partitions : List Partition) (available : List String) (low high : Int) :
    rangeTargets partitions available low high =
      Name.distinct ((metPlaces partitions available low high).map (·.1)) := by
  rw [rangeTargets, metPlaces, List.map_filterMap]
  congr 2
  funext ⟨partition, place⟩
  by_cases hmeets : partition.intersects low high
  · simp [metPlace, hmeets, Function.comp_def]
  · simp [metPlace, hmeets]

theorem metPlaces_ascending (partitions : List Partition) (available : List String)
    (low high : Int) :
    (metPlaces partitions available low high).Pairwise fun a b => a.2 < b.2 := by
  have hplaces : partitions.zipIdx.Pairwise fun a b => a.2 < b.2 := by
    apply List.pairwise_map.1
    rw [List.zipIdx_map_snd]
    exact List.pairwise_lt_range'
  apply List.pairwise_filterMap.2
  refine hplaces.imp fun {a b} hlt met hmet other hother => ?_
  rw [← (metPlace_eq_some_iff.1 hmet).1, ← (metPlace_eq_some_iff.1 hother).1]
  exact hlt

theorem mem_metPlaces {low high : Int} {name : String} {place : Nat} :
    (name, place) ∈ metPlaces partitions available low high ↔
      targetAt available place = some name ∧
        ∃ p, partitions[place]? = some p ∧ p.intersects low high := by
  simp only [metPlaces, List.mem_filterMap, Prod.exists, metPlace_eq_some_iff,
    List.mk_mem_zipIdx_iff_getElem?]
  constructor
  · rintro ⟨p, _, hp, rfl, hname, hmeets⟩
    exact ⟨hname, p, hp, hmeets⟩
  · rintro ⟨hname, p, hp, hmeets⟩
    exact ⟨p, place, hp, rfl, hname, hmeets⟩

/-- Some integer of the interval lies in the partition at the place, and the target of the place is
the name. -/
def Reaches (partitions : List Partition) (available : List String) (interval : Interval)
    (target : String) (place : Nat) : Prop :=
  targetAt available place = some target ∧
    ∃ p, partitions[place]? = some p ∧ ∃ v : Int64, interval.Admits v ∧ p.contains v.toInt

theorem exists_toInt_eq {low high : Int64} {n : Int} (hlow : low.toInt ≤ n)
    (hhigh : n ≤ high.toInt) : ∃ v : Int64, v.toInt = n := by
  have hmin := low.le_toInt
  have hmax := high.toInt_lt
  exact ⟨Int64.ofInt n, Int64.toInt_ofInt_of_le (by omega) (by omega)⟩

theorem intersects_iff_exists {p : Partition} {low high : Int64} :
    p.intersects low.toInt high.toInt ↔
      ∃ v : Int64, (low ≤ v ∧ v ≤ high) ∧ p.contains v.toInt := by
  simp only [Partition.intersects_iff, Int64.le_iff_toInt_le]
  constructor
  · rintro ⟨n, hlow, hhigh, hcontains⟩
    obtain ⟨v, rfl⟩ := exists_toInt_eq hlow hhigh
    exact ⟨v, ⟨hlow, hhigh⟩, hcontains⟩
  · rintro ⟨v, ⟨hlow, hhigh⟩, hcontains⟩
    exact ⟨v.toInt, hlow, hhigh, hcontains⟩

section Interval

variable {interval : Interval} {low high : Int64}

theorem reaches_iff (h : ∀ v, interval.Admits v ↔ low ≤ v ∧ v ≤ high) {target : String}
    {place : Nat} : Reaches partitions available interval target place ↔
      (target, place) ∈ metPlaces partitions available low.toInt high.toInt := by
  simp only [Reaches, mem_metPlaces, intersects_iff_exists, h]

theorem exists_reaches_iff {place : Int → Nat} (hplaced : Partition.PlacedBy place partitions)
    {target : String} : (∃ i, Reaches partitions available interval target i) ↔
      ∃ v : Int64, interval.Admits v ∧
        preciseTarget partitions available v.toInt = some target := by
  simp only [hplaced.preciseTarget_eq]
  constructor
  · rintro ⟨i, htarget, p, hp, v, hv, hcontains⟩
    rw [(hplaced.contains_iff hp _).1 hcontains] at htarget
    exact ⟨v, hv, htarget⟩
  · rintro ⟨v, hv, htarget⟩
    obtain ⟨p, hp, hcontains⟩ := hplaced.exists_contains v.toInt
    exact ⟨place v.toInt, htarget, p, hp, v, hv, hcontains⟩

/-- The targets are the names that the interval reaches, each once, by the first places at which it
reaches them. -/
structure Collected (partitions : List Partition) (available : List String) (interval : Interval)
    (targets : List String) : Prop where
  mem_iff : ∀ target, target ∈ targets ↔
    ∃ i, Reaches partitions available interval target i
  nodup : targets.Nodup
  ascending : targets.Pairwise fun a b =>
    ∃ i j, IsLeast {place | Reaches partitions available interval a place} i ∧
      IsLeast {place | Reaches partitions available interval b place} j ∧ i < j

theorem exists_isLeast {reached : Nat → Prop} (h : ∃ place, reached place) :
    ∃ place, IsLeast {place | reached place} place := by
  classical
  exact ⟨Nat.find h, Nat.isLeast_find h⟩

theorem collected_nil (h : ∀ v, ¬interval.Admits v) :
    Collected partitions available interval [] := by
  refine ⟨fun target => ⟨fun hnil => absurd hnil List.not_mem_nil, ?_⟩, .nil, .nil⟩
  rintro ⟨_, _, _, _, v, hv, _⟩
  exact absurd hv (h v)

theorem collected_rangeTargets
    (hdistinct : available.Pairwise fun a b => Name.fold a ≠ Name.fold b)
    (h : ∀ v, interval.Admits v ↔ low ≤ v ∧ v ≤ high) :
    Collected partitions available interval
      (rangeTargets partitions available low.toInt high.toInt) := by
  let entries := metPlaces partitions available low.toInt high.toInt
  have hreaches {target : String} {i : Nat} :
      Reaches partitions available interval target i ↔ (target, i) ∈ entries := reaches_iff h
  have havailable {target : String} {i : Nat} (hmem : (target, i) ∈ entries) :
      target ∈ available := mem_of_targetAt (mem_metPlaces.1 hmem).1
  have hnames : entries.map (·.1) ⊆ available := by
    intro target htarget
    obtain ⟨entry, hentry, rfl⟩ := List.mem_map.1 htarget
    exact havailable hentry
  have hmem (target : String) : target ∈ Name.distinct (entries.map (·.1)) ↔
      ∃ i, Reaches partitions available interval target i := by
    rw [Name.mem_distinct_iff hdistinct hnames, List.mem_map]
    simp only [hreaches, Prod.exists, exists_and_right, exists_eq_right]
  have hascending := metPlaces_ascending partitions available low.toInt high.toInt
  rw [rangeTargets_eq]
  refine ⟨hmem, ?_, ?_⟩
  · exact (Name.pairwise_distinct _).imp fun hfold heq => hfold (congrArg Name.fold heq)
  · refine (Name.distinct_ascending entries hascending).imp_of_mem ?_
    intro a b ha hb hlater
    obtain ⟨i, hi⟩ := exists_isLeast ((hmem a).1 ha)
    obtain ⟨j, hj⟩ := exists_isLeast ((hmem b).1 hb)
    obtain ⟨first, hfirst, hfold, hlt⟩ := hlater (b, j) (hreaches.1 hj.1) rfl
    have hsame : first.1 = a :=
      Name.eq_of_fold_eq hdistinct (havailable hfirst) (havailable (hreaches.1 hi.1)) hfold
    have hle : i ≤ first.2 := hi.2 (hreaches.2 (hsame ▸ hfirst))
    exact ⟨i, j, hi, hj, hle.trans_lt hlt⟩

/-- The range of an interval between numbers has what the interval reaches as targets. -/
theorem exists_collected {type : String} {props : Properties}
    {table : Except Fault (List Partition)} {span : Span} (htable : table = .ok partitions)
    (hdistinct : available.Pairwise fun a b => Name.fold a ≠ Name.fold b)
    (hnumeric : span.interval.IsNumeric) :
    ∃ targets, (byPartition type props table).range available span = .ok targets ∧
      Collected partitions available span.interval targets := by
  obtain ⟨found, hfound⟩ := Interval.exists_integers hnumeric
  have hadmits := Interval.admits_iff hfound
  cases found with
  | none =>
    refine ⟨[], bind_eq_ok.2 ⟨partitions, htable, by rw [hfound]⟩, collected_nil fun v hv => ?_⟩
    obtain ⟨_, _, hnone, _⟩ := (hadmits v).1 hv
    cases hnone
  | some ends =>
    obtain ⟨low, high⟩ := ends
    refine ⟨_, bind_eq_ok.2 ⟨partitions, htable, by rw [hfound]⟩, ?_⟩
    apply collected_rangeTargets hdistinct
    intro v
    rw [hadmits v]
    constructor
    · rintro ⟨_, _, hends, hlow, hhigh⟩
      cases hends
      exact ⟨hlow, hhigh⟩
    · rintro ⟨hlow, hhigh⟩
      exact ⟨low, high, rfl, hlow, hhigh⟩

end Interval

/-- An algorithm that cuts the integers, with the partitions that its settings cut. -/
inductive Standard.Cuts : Standard → List Partition → Prop where
  | fixed {props : Properties} {partitions : List Partition}
      (accepted : fixedPartitions props = .ok partitions) : Cuts (fixedRange props) partitions
  | listed {props : Properties} {partitions : List Partition}
      (accepted : listedPartitions props = .ok partitions) : Cuts (listedRange props) partitions

namespace Standard.Cuts

variable {a : Standard}

theorem exists_byPartition (h : a.Cuts partitions) :
    ∃ type props table, a = byPartition type props table ∧ table = .ok partitions := by
  cases h with
  | fixed accepted => exact ⟨_, _, _, rfl, accepted⟩
  | listed accepted => exact ⟨_, _, _, rfl, accepted⟩

theorem placedBy (h : a.Cuts partitions) : ∃ place, Partition.PlacedBy place partitions := by
  cases h with
  | fixed accepted => exact placedBy_of_fixedPartitions accepted
  | listed accepted => exact placedBy_of_listedPartitions accepted

theorem precise_eq (h : a.Cuts partitions) {point : Point} {v : Int64}
    (hv : point.value.number? = some v) (available : List String) :
    a.precise available point = .ok (preciseTarget partitions available v.toInt) := by
  obtain ⟨_, _, _, rfl, htable⟩ := h.exists_byPartition
  exact bind_eq_ok.2 ⟨partitions, htable, bind_eq_ok.2 ⟨v, integer_of_number? hv, rfl⟩⟩

end Standard.Cuts

/-- The targets of a range between numbers are those of the integers that lie in it, each once and
by the first places at which the range reaches them. There is none only where no name is available
or no integer lies in the range. -/
theorem range_exact {a : Standard} (h : a.Cuts partitions)
    (hdistinct : available.Pairwise fun a b => Name.fold a ≠ Name.fold b) {span : Span}
    (hnumeric : span.interval.IsNumeric) :
    ∃ targets, a.range available span = .ok targets ∧
      (∀ target, target ∈ targets ↔ ∃ v : Int64, span.interval.Admits v ∧
        a.precise available ⟨span.table, span.column, .int v⟩ = .ok (some target)) ∧
      targets.Nodup ∧
      (targets.Pairwise fun former later =>
        ∃ i j, IsLeast {place | Reaches partitions available span.interval former place} i ∧
          IsLeast {place | Reaches partitions available span.interval later place} j ∧ i < j) ∧
      (targets = [] ↔ available = [] ∨ ∀ v, ¬span.interval.Admits v) := by
  obtain ⟨_, _, _, rfl, htable⟩ := h.exists_byPartition
  obtain ⟨place, hplaced⟩ := h.placedBy
  obtain ⟨targets, htargets, hcollected⟩ := exists_collected htable hdistinct hnumeric
  have hmem (target : String) : target ∈ targets ↔ ∃ v : Int64, span.interval.Admits v ∧
      preciseTarget partitions available v.toInt = some target :=
    (hcollected.mem_iff target).trans (exists_reaches_iff hplaced)
  refine ⟨targets, htargets, fun target => ?_, hcollected.nodup, hcollected.ascending, ?_⟩
  · rw [hmem]
    have hprecise (v : Int64) := h.precise_eq
      (show (⟨span.table, span.column, .int v⟩ : Point).value.number? = some v from rfl) available
    simp only [hprecise, Except.ok.injEq]
  · constructor
    · rintro rfl
      by_contra hsome
      simp only [not_or, not_forall, not_not] at hsome
      obtain ⟨hne, v, hv⟩ := hsome
      obtain ⟨target, htarget⟩ := exists_preciseTarget hplaced hne v.toInt
      exact absurd ((hmem target).2 ⟨v, hv, htarget⟩) List.not_mem_nil
    · intro hnone
      apply List.eq_nil_iff_forall_not_mem.2
      intro target htarget
      obtain ⟨v, hv, hprecise⟩ := (hmem target).1 htarget
      rcases hnone with rfl | hnone
      · exact absurd (mem_of_preciseTarget hprecise) List.not_mem_nil
      · exact hnone v hv

/-- From the last number of the first volume on, exclusive, without an end. -/
def topSpan : Span :=
  ⟨"t", "id", .greaterThan (.text "9223372036854775802")⟩

theorem range_exact_topSettings :
    ∃ partitions, (fixedRange topSettings).Cuts partitions ∧ topSpan.interval.IsNumeric ∧
      ∃ targets, (fixedRange topSettings).range ["a", "b"] topSpan = .ok targets ∧
        targets ≠ [] ∧ targets.Nodup ∧
        ("b" ∈ targets ↔ ∃ v : Int64, topSpan.interval.Admits v ∧
          (fixedRange topSettings).precise ["a", "b"] ⟨"t", "id", .int v⟩ = .ok (some "b")) := by
  have hbuilt := fixedSettings_topSettings.okWhen.eq_ok_iff.2 ⟨canCut_topSettings, rfl⟩
  have hdistinct : ["a", "b"].Pairwise fun a b => Name.fold a ≠ Name.fold b := by decide +kernel
  have hnumber : (Value.text "9223372036854775802").number? = some 9223372036854775802 := by
    decide
  have hnumeric : topSpan.interval.IsNumeric := ⟨Option.isSome_of_eq_some hnumber, trivial⟩
  have hadmitted : topSpan.interval.Admits Int64.maxValue := by
    refine ⟨fun m hm => ?_, trivial⟩
    cases hnumber.symm.trans hm
    decide
  obtain ⟨targets, htargets, hmem, hnodup, _, hnone⟩ :=
    range_exact (.fixed hbuilt) hdistinct hnumeric
  refine ⟨_, .fixed hbuilt, hnumeric, targets, htargets, fun hnil => ?_, hnodup, hmem "b"⟩
  rcases hnone.1 hnil with hempty | hnoInteger
  · cases hempty
  · exact hnoInteger _ hadmitted

end Algorithm

end Sharding
