import Mathlib.Data.Finset.Sort
import Sharding.Proofs.Algorithm.Partition
import Sharding.Proofs.Dictionary
import Sharding.Proofs.Name
import Sharding.Proofs.Outcome
import Sharding.Proofs.Text
/-!
# Listed partitions

Partitions between listed boundaries depend on the set of boundaries alone: their order, their
repetitions and what else the text lists make no difference.
-/

namespace Sharding.Algorithm

open Outcome Text

/-- The integers among the trimmed pieces of a text. -/
def boundarySet (raw : String) : Finset Int64 :=
  ((pieces raw).filterMap fun piece => Numeral.parse? (trim piece)).toFinset

/-- The numbers of a set in ascending order. -/
def ascending (bounds : Finset Int64) : List Int :=
  (bounds.image Int64.toInt).sort

theorem boundarySet_trim (raw : String) : boundarySet (trim raw) = boundarySet raw := by
  have hpieces (s : String) : (pieces s).filterMap (fun piece => Numeral.parse? (trim piece)) =
      ((pieces s).map trim).filterMap Numeral.parse? := by
    rw [List.filterMap_map, Function.comp_def]
  rw [boundarySet, boundarySet, hpieces, hpieces, map_trim_pieces_trim]

theorem pairwise_ascending (bounds : Finset Int64) : (ascending bounds).Pairwise (· < ·) :=
  (Finset.sortedLT_sort _).pairwise

theorem length_ascending (bounds : Finset Int64) : (ascending bounds).length = bounds.card := by
  rw [ascending, Finset.length_sort, Finset.card_image_of_injective _ fun _ _ => Int64.toInt_inj.1]

/-- As many numbers of the set are reached in ascending order as in any other. -/
theorem countP_ascending (bounds : Finset Int64) (v : Int64) :
    (ascending bounds).countP (· ≤ v.toInt) = (bounds.filter (· ≤ v)).card := by
  have hreached : ((ascending bounds).filter (· ≤ v.toInt)).toFinset =
      (bounds.filter (· ≤ v)).image Int64.toInt := by
    ext n
    simp only [ascending, List.mem_toFinset, List.mem_filter, Finset.mem_sort, Finset.mem_image,
      Finset.mem_filter, decide_eq_true_eq, Int64.le_iff_toInt_le]
    grind
  have hnodup : ((ascending bounds).filter (· ≤ v.toInt)).Nodup :=
    (Finset.sort_nodup _ _).filter _
  rw [List.countP_eq_length_filter, ← List.toFinset_card_of_nodup hnodup, hreached,
    Finset.card_image_of_injective _ fun _ _ => Int64.toInt_inj.1]

theorem boundaries_eq (raw : String) : boundaries raw = ascending (boundarySet raw) := by
  have hsorted : (boundaries raw).Pairwise (· ≤ ·) := List.pairwise_mergeSort' _ _
  have hnodup : (boundaries raw).Nodup :=
    (List.mergeSort_perm _ _).nodup_iff.2 (nodup_eraseDups _)
  have hmem (n : Int) : n ∈ boundaries raw ↔ n ∈ ascending (boundarySet raw) := by
    simp [boundaries, ascending, boundarySet]
  have hperm : (boundaries raw).Perm (ascending (boundarySet raw)) :=
    (List.perm_ext_iff_of_nodup hnodup (Finset.sort_nodup _ _)).2 hmem
  exact hperm.eq_of_pairwise' hsorted (Finset.pairwise_sort _ _)

/-- The partitions between the boundaries of a set. -/
def partitionsAt (bounds : Finset Int64) : List Partition :=
  Partition.between none (ascending bounds)

theorem placedBy_partitionsAt (bounds : Finset Int64) :
    Partition.PlacedBy (fun n => (ascending bounds).countP (· ≤ n)) (partitionsAt bounds) :=
  Partition.placedBy_between (pairwise_ascending bounds)

theorem ascending_eq_nil {bounds : Finset Int64} : ascending bounds = [] ↔ bounds = ∅ := by
  rw [← List.length_eq_zero_iff, length_ascending, Finset.card_eq_zero]

theorem boundarySet_of_isBlank {raw : String} (h : isBlank raw) : boundarySet raw = ∅ := by
  have hnone : (trim raw).toList = [] := by
    rw [toList_trim, List.dropWhile_eq_nil_iff.2 (List.all_eq_true.1 h), List.rdropWhile_nil]
  rw [← boundarySet_trim, String.toList_eq_nil_iff.1 hnone]
  decide

section Listed

variable {props : Properties} {raw : String}

/-- A text that lists integers has the partitions at its boundaries. -/
theorem listedPartitions_okWhen (h : props.get? "partition.ranges" = some raw) :
    OkWhen (boundarySet raw ≠ ∅) (partitionsAt (boundarySet raw)) (listedPartitions props) := by
  unfold listedPartitions Properties.text Properties.text?
  rw [h, Option.bind_some]
  by_cases hblank : isBlank raw
  · have hmissing : content? raw = none := if_pos hblank
    rw [hmissing]
    exact .refused (not_not.2 (boundarySet_of_isBlank hblank)) rfl
  · rw [content?_eq_some_iff.2 ⟨hblank, rfl⟩]
    simp only [bind, Except.bind, boundaries_eq, boundarySet_trim]
    by_cases hempty : boundarySet raw = ∅
    · rw [ascending_eq_nil.2 hempty]
      exact .refused (not_not.2 hempty) rfl
    · obtain ⟨first, rest, hbounds⟩ := List.exists_cons_of_ne_nil (mt ascending_eq_nil.1 hempty)
      rw [partitionsAt, hbounds]
      exact .ok hempty

theorem placedBy_of_listedPartitions {partitions : List Partition}
    (h : listedPartitions props = .ok partitions) :
    ∃ place, Partition.PlacedBy place partitions := by
  obtain ⟨text, _, h⟩ := bind_eq_ok.1 h
  split at h
  · cases h
  · cases h
    rw [boundaries_eq]
    exact ⟨_, placedBy_partitionsAt (boundarySet text)⟩

/-- Listed partitions in full. They are built if the text lists an integer, and refused as a fault
of the configuration else. There is one more of them than there are distinct integers, and an
integer lies in exactly one, at the place that counts the boundaries which it has reached. Texts
that list the same integers have the same answers to every value and every range. -/
theorem listedPartitions_place (h : props.get? "partition.ranges" = some raw) :
    ((∃ fault, listedPartitions props = .error fault) ↔ boundarySet raw = ∅) ∧
      (∀ fault, listedPartitions props = .error fault → fault.kind = .configuration) ∧
      (∀ partitions, listedPartitions props = .ok partitions →
        partitions.length = (boundarySet raw).card + 1 ∧
          ∀ v : Int64, ((boundarySet raw).filter (· ≤ v)).card < partitions.length ∧
            ∀ i (hi : i < partitions.length),
              partitions[i].contains v.toInt ↔ i = ((boundarySet raw).filter (· ≤ v)).card) ∧
      ∀ other otherRaw, other.get? "partition.ranges" = some otherRaw →
        boundarySet raw ≠ ∅ → boundarySet otherRaw = boundarySet raw →
          (∀ available point, (listedRange other).precise available point =
            (listedRange props).precise available point) ∧
          ∀ available span, (listedRange other).range available span =
            (listedRange props).range available span := by
  have hbuilt := listedPartitions_okWhen h
  refine ⟨hbuilt.exists_error_iff.trans not_not, fun _ => hbuilt.kind_of_error, ?_, ?_⟩
  · intro partitions hpartitions
    obtain ⟨_, rfl⟩ := hbuilt.eq_ok_iff.1 hpartitions
    refine ⟨?_, fun v => ?_⟩
    · rw [partitionsAt, Partition.length_between, length_ascending]
    · simpa only [countP_ascending] using placedBy_partitionsAt (boundarySet raw) v.toInt
  · intro other otherRaw hother hsome hsame
    have htable : listedPartitions other = listedPartitions props := by
      rw [hbuilt.eq_ok_iff.2 ⟨hsome, rfl⟩]
      exact (listedPartitions_okWhen hother).eq_ok_iff.2 ⟨hsame ▸ hsome, by rw [hsame]⟩
    simp only [listedRange, htable]
    exact ⟨fun _ _ => rfl, fun _ _ => rfl⟩

end Listed

/-- Properties that list boundaries. -/
def listing (raw : String) : Properties :=
  Dictionary.empty.insert "partition.ranges" raw

/-- Boundaries out of order and repeated, among a word, a blank and a number beyond 64 bits. -/
def jumbled : String := " +5, x,1,5,,9223372036854775808 "

theorem listedPartitions_place_jumbled :
    boundarySet jumbled = {1, 5} ∧
      (∃ partitions, listedPartitions (listing jumbled) = .ok partitions ∧
        partitions.length = 3 ∧
          ∀ i (hi : i < partitions.length), partitions[i].contains 4 ↔ i = 1) ∧
      ∀ available point, (listedRange (listing "1,5")).precise available point =
        (listedRange (listing jumbled)).precise available point := by
  have hset : boundarySet jumbled = {1, 5} := by decide
  have hsame : boundarySet "1,5" = boundarySet jumbled := by decide
  have hraw (raw : String) : (listing raw).get? "partition.ranges" = some raw := by
    rw [listing, Dictionary.get?_insert, if_pos rfl]
  obtain ⟨hfails, _, hplaces, halike⟩ := listedPartitions_place (hraw jumbled)
  have hsome : boundarySet jumbled ≠ ∅ := by
    rw [hset]
    decide
  refine ⟨hset, ?_, (halike _ _ (hraw "1,5") hsome hsame).1⟩
  cases hbuilt : listedPartitions (listing jumbled) with
  | error fault => exact absurd (hfails.1 ⟨fault, hbuilt⟩) hsome
  | ok partitions =>
    obtain ⟨hlength, hcontains⟩ := hplaces partitions hbuilt
    refine ⟨partitions, rfl, ?_, fun i hi => ?_⟩
    · rw [hlength, hset]
      rfl
    · have hcount : ((boundarySet jumbled).filter (· ≤ 4)).card = 1 := by
        rw [hset]
        decide
      rw [← hcount]
      exact (hcontains 4).2 i hi

end Sharding.Algorithm
