import Sharding.Proofs.Algorithm.Boundaries
import Sharding.Proofs.Algorithm.BuiltIn
import Sharding.Proofs.Algorithm.Expression
import Sharding.Proofs.Algorithm.Tiling
import Sharding.Proofs.Interval
/-!
# The targets of built-in algorithms

A range has every target that one of its integers has (`range_covers`), and the algorithms that
place integers have a target for each of them (`exists_precise`).
-/

namespace Sharding.Algorithm

open Outcome

theorem mem_of_targetAt {available : List String} {place : Nat} {target : String}
    (h : targetAt available place = some target) : target ∈ available :=
  List.mem_of_getElem? h

theorem exists_targetAt {available : List String} (h : available ≠ []) (place : Nat) :
    ∃ target, targetAt available place = some target :=
  Option.isSome_iff_exists.1 (targetAt_isSome h place)

theorem exists_preciseTarget {place : Int → Nat} {partitions : List Partition}
    (h : Partition.PlacedBy place partitions) {available : List String} (hne : available ≠ [])
    (n : Int) : ∃ target, preciseTarget partitions available n = some target := by
  rw [h.preciseTarget_eq]
  exact exists_targetAt hne (place n)

/-- A partition that contains an integer of the range is one that the range meets. -/
theorem isIn_rangeTargets {partitions : List Partition} {available : List String}
    {low n high : Int} {target : String} (hlow : low ≤ n) (hhigh : n ≤ high)
    (h : preciseTarget partitions available n = some target) :
    Name.isIn (rangeTargets partitions available low high) target := by
  obtain ⟨place, hplace, htarget⟩ := Option.bind_eq_some_iff.1 h
  obtain ⟨hlt, hcontains, _⟩ := List.findIdx?_eq_some_iff_getElem.1 hplace
  have hmeets := Partition.intersects_iff.2 ⟨n, hlow, hhigh, hcontains⟩
  refine Name.isIn_distinct.2 (Name.isIn_of_mem (List.mem_filterMap.2 ?_))
  refine ⟨(partitions[place], place), ?_, ?_⟩
  · exact List.mk_mem_zipIdx_iff_getElem?.2 (List.getElem?_eq_getElem hlt)
  · simp only [hmeets, if_true]
    exact htarget

theorem byPartition_covers {type : String} {props : Properties}
    {table : Except Fault (List Partition)} {available names : List String} {point : Point}
    {span : Span} {target : String}
    (hprecise : (byPartition type props table).precise available point = .ok (some target))
    (hrange : (byPartition type props table).range available span = .ok names)
    (hadmits : ∀ n, point.value.number? = some n → span.interval.Admits n) :
    Name.isIn names target := by
  obtain ⟨partitions, hpartitions, hprecise⟩ := bind_eq_ok.1 hprecise
  obtain ⟨n, hn, hprecise⟩ := bind_eq_ok.1 hprecise
  obtain ⟨_, hsame, hrange⟩ := bind_eq_ok.1 hrange
  cases hpartitions.symm.trans hsame
  have hnumber : point.value.number? = some n := by
    unfold integer at hn
    split at hn <;> cases hn
    assumption
  split at hrange
  · cases hrange
  · next hintegers =>
    obtain ⟨_, _, heq, _⟩ := (Interval.admits_iff hintegers n).1 (hadmits n hnumber)
    cases heq
  · next low high hintegers =>
    obtain ⟨_, _, heq, hlow, hhigh⟩ :=
      (Interval.admits_iff hintegers n).1 (hadmits n hnumber)
    cases heq
    cases hrange
    rw [Int64.le_iff_toInt_le] at hlow hhigh
    exact isIn_rangeTargets hlow hhigh (Except.ok.inj hprecise)

theorem mem_of_byPlace {type : String} {props : Properties}
    {place : Value → Int → Except Fault Nat} {available : List String} {point : Point}
    {target : String}
    (h : (byPlace type props place).precise available point = .ok (some target)) :
    target ∈ available := by
  obtain ⟨count, _, h⟩ := bind_eq_ok.1 h
  obtain ⟨_, _, h⟩ := map_eq_ok.1 h
  exact mem_of_targetAt h

theorem mem_of_preciseTarget {partitions : List Partition} {available : List String} {n : Int}
    {target : String} (h : preciseTarget partitions available n = some target) :
    target ∈ available := by
  obtain ⟨place, _, htarget⟩ := Option.bind_eq_some_iff.1 h
  exact mem_of_targetAt htarget

theorem mem_of_byPartition {type : String} {props : Properties}
    {table : Except Fault (List Partition)} {available : List String} {point : Point}
    {target : String}
    (h : (byPartition type props table).precise available point = .ok (some target)) :
    target ∈ available := by
  obtain ⟨partitions, _, h⟩ := bind_eq_ok.1 h
  obtain ⟨n, _, h⟩ := bind_eq_ok.1 h
  exact mem_of_preciseTarget (Except.ok.inj h)

/-- Built-in algorithms name only what is available. -/
theorem Standard.BuiltIn.mem_of_precise {a : Standard} (h : a.BuiltIn) {available : List String}
    {point : Point} {target : String} (hprecise : a.precise available point = .ok (some target)) :
    target ∈ available := by
  cases h with
  | inline props =>
    obtain ⟨expression, _, hprecise⟩ := bind_eq_ok.1 hprecise
    exact mem_of_namedTarget hprecise
  | modulo props => exact mem_of_byPlace hprecise
  | hashModulo props => exact mem_of_byPlace hprecise
  | fixedRange props => exact mem_of_byPartition hprecise
  | listedRange props => exact mem_of_byPartition hprecise

/-- A range that admits the number of a value, if it has one, has the target of the value. -/
theorem Standard.BuiltIn.range_covers {a : Standard} (h : a.BuiltIn)
    {available names : List String} {point : Point} {span : Span} {target : String}
    (hprecise : a.precise available point = .ok (some target))
    (hrange : a.range available span = .ok names)
    (hadmits : ∀ n, point.value.number? = some n → span.interval.Admits n) :
    Name.isIn names target := by
  have havailable := Name.isIn_of_mem (h.mem_of_precise hprecise)
  cases h with
  | inline props =>
    cases rangeTargetsIfAllowed_eq_ok hrange
    exact havailable
  | modulo props =>
    cases hrange
    exact havailable
  | hashModulo props =>
    cases hrange
    exact havailable
  | fixedRange props => exact byPartition_covers hprecise hrange hadmits
  | listedRange props => exact byPartition_covers hprecise hrange hadmits

/-- The types of the algorithms that place values by number, whatever the names are. -/
def placingTypes : List String := ["MOD", "HASH_MOD", "STANDARD_RANGE", "CUSTOM_RANGE"]

theorem exists_byPlace {type : String} {props : Properties}
    {place : Value → Int → Except Fault Nat} {available : List String} {point : Point}
    (hcheck : (byPlace type props place).check = .ok ()) (hne : available ≠ [])
    (hplace : ∀ count, ∃ n, place point.value count = .ok n) :
    ∃ target, (byPlace type props place).precise available point = .ok (some target) := by
  obtain ⟨count, hcount, _⟩ := map_eq_ok.1 hcheck
  obtain ⟨n, hn⟩ := hplace count.toInt
  obtain ⟨target, htarget⟩ := exists_targetAt hne n
  exact ⟨target, bind_eq_ok.2 ⟨count, hcount, map_eq_ok.2 ⟨n, hn, htarget⟩⟩⟩

theorem exists_byPartition {type : String} {props : Properties}
    {table : Except Fault (List Partition)} {available : List String} {point : Point} {n : Int64}
    (hplaced : ∀ partitions, table = .ok partitions →
      ∃ place, Partition.PlacedBy place partitions)
    (hcheck : (byPartition type props table).check = .ok ()) (hne : available ≠ [])
    (hn : integer type point.value = .ok n) :
    ∃ target, (byPartition type props table).precise available point = .ok (some target) := by
  obtain ⟨partitions, htable, _⟩ := map_eq_ok.1 hcheck
  obtain ⟨place, hplaced⟩ := hplaced partitions htable
  obtain ⟨target, htarget⟩ := exists_preciseTarget hplaced hne n.toInt
  exact ⟨target, bind_eq_ok.2 ⟨partitions, htable,
    bind_eq_ok.2 ⟨n, hn, congrArg Except.ok htarget⟩⟩⟩

theorem integer_of_number? {type : String} {v : Value} {n : Int64} (h : v.number? = some n) :
    integer type v = .ok n := by
  rw [integer, h]

theorem Standard.BuiltIn.exists_precise {a : Standard} (h : a.BuiltIn)
    (hcheck : a.check = .ok ()) (htype : a.type ∈ placingTypes) {available : List String}
    (hne : available ≠ []) {point : Point} {n : Int64} (hn : point.value.number? = some n) :
    ∃ target, a.precise available point = .ok (some target) := by
  cases h with
  | inline props => exact absurd htype (show "INLINE" ∉ placingTypes by decide)
  | modulo props =>
    refine exists_byPlace hcheck hne fun count => ⟨(n.toInt % count).toNat, ?_⟩
    exact bind_eq_ok.2 ⟨n, integer_of_number? hn, rfl⟩
  | hashModulo props => exact exists_byPlace hcheck hne fun count => ⟨_, rfl⟩
  | fixedRange props =>
    exact exists_byPartition (fun _ => placedBy_of_fixedPartitions) hcheck hne
      (integer_of_number? hn)
  | listedRange props =>
    exact exists_byPartition (fun _ => placedBy_of_listedPartitions) hcheck hne
      (integer_of_number? hn)

end Sharding.Algorithm
