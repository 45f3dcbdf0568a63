import Mathlib.Data.Rat.Floor
import Sharding.Proofs.Algorithm.Partition
import Sharding.Proofs.Dictionary
import Sharding.Proofs.Numeral
import Sharding.Proofs.Outcome
/-!
# Fixed partitions

Which settings are cut into partitions of one volume, into how many, and which of them an integer
lies in. The cut is stated exactly; it is also what the same steps give in 64-bit arithmetic, none
of which overflows.
-/

namespace Sharding.Algorithm

open Outcome Text

/-- The bounds and the volume that the settings of fixed partitions write. -/
structure FixedSettings (props : Properties) (lower upper volume : Int64) : Prop where
  lower_eq : props.integer "STANDARD_RANGE" "partition.lower" = .ok lower
  upper_eq : props.integer "STANDARD_RANGE" "partition.upper" = .ok upper
  volume_eq : props.integer "STANDARD_RANGE" "partition.volume" = .ok volume

/-- How many volumes it takes to cover the integers from `lower` up to `upper`. -/
def volumesNeeded (lower upper volume : Int64) : Int :=
  ⌈((upper.toInt - lower.toInt : Int) : ℚ) / (volume.toInt : ℚ)⌉

/-- A positive volume that goes into a span within 64 bits. -/
structure Spans (lower upper volume : Int64) : Prop where
  volume_pos : 0 < volume.toInt
  span_fits : Int64.minValue.toInt ≤ upper.toInt - lower.toInt ∧
    upper.toInt - lower.toInt ≤ Int64.maxValue.toInt
  volume_le : volume.toInt ≤ upper.toInt - lower.toInt

/-- Settings that can be cut, into no more volumes than a 32-bit integer counts. -/
structure CanCut (lower upper volume : Int64) : Prop extends Spans lower upper volume where
  volumes_le : volumesNeeded lower upper volume ≤ 2 ^ 31 - 1

/-- A quotient rounded up covers the span, and one less does not. -/
theorem roundedUp_bounds (span : Int) {volume : Int} (hvolume : 0 < volume) :
    ((span + volume - 1) / volume - 1) * volume < span ∧
      span ≤ (span + volume - 1) / volume * volume := by
  obtain ⟨hfloor, hceil⟩ := (Int.ediv_eq_iff_of_pos hvolume).1
    (rfl : (span + volume - 1) / volume = (span + volume - 1) / volume)
  rw [Int.sub_mul, Int.one_mul]
  omega

theorem volumesNeeded_eq {lower upper volume : Int64} (hvolume : 0 < volume.toInt) :
    volumesNeeded lower upper volume =
      (upper.toInt - lower.toInt + volume.toInt - 1) / volume.toInt := by
  obtain ⟨hless, hcovers⟩ := roundedUp_bounds (upper.toInt - lower.toInt) hvolume
  have hpositive : (0 : ℚ) < volume.toInt := by exact_mod_cast hvolume
  rw [volumesNeeded, Int.ceil_eq_iff, lt_div_iff₀ hpositive, div_le_iff₀ hpositive]
  exact ⟨by exact_mod_cast hless, by exact_mod_cast hcovers⟩

/-- The volumes cover the span, and one less does not. -/
theorem volumesNeeded_bounds (lower upper : Int64) {volume : Int64}
    (hvolume : 0 < volume.toInt) :
    (volumesNeeded lower upper volume - 1) * volume.toInt < upper.toInt - lower.toInt ∧
      upper.toInt - lower.toInt ≤ volumesNeeded lower upper volume * volume.toInt := by
  rw [volumesNeeded_eq hvolume]
  exact roundedUp_bounds _ hvolume

/-- The partitions that settings are cut into. -/
def tilingOf (lower upper volume : Int64) : List Partition :=
  Partition.tiling lower.toInt upper.toInt volume.toInt (volumesNeeded lower upper volume).toNat

/-- The place of an integer among them. -/
def placeIn (lower upper volume : Int64) (n : Int) : Nat :=
  Partition.placeInTiling lower.toInt upper.toInt volume.toInt
    (volumesNeeded lower upper volume).toNat n

section Spans

variable {lower upper volume : Int64}

/-- There is a volume in the span, and no more volumes than integers. -/
theorem Spans.volumes_within (h : Spans lower upper volume) :
    0 < volumesNeeded lower upper volume ∧
      volumesNeeded lower upper volume ≤ upper.toInt - lower.toInt := by
  have hvolume := h.volume_pos
  have hspan := h.volume_le
  obtain ⟨hless, hcovers⟩ := volumesNeeded_bounds lower upper hvolume
  have hpositive : 0 < volumesNeeded lower upper volume := by
    by_contra hnot
    have : volumesNeeded lower upper volume * volume.toInt ≤ 0 :=
      Int.mul_nonpos_of_nonpos_of_nonneg (not_lt.1 hnot) hvolume.le
    omega
  have hbefore : volumesNeeded lower upper volume - 1 < upper.toInt - lower.toInt := calc
    _ ≤ (volumesNeeded lower upper volume - 1) * volume.toInt :=
      le_mul_of_one_le_right (by omega) hvolume
    _ < upper.toInt - lower.toInt := hless
  omega

theorem CanCut.placedBy (h : CanCut lower upper volume) :
    Partition.PlacedBy (placeIn lower upper volume) (tilingOf lower upper volume) := by
  have hvolume := h.volume_pos
  have hspan := h.volume_le
  apply Partition.placedBy_tiling hvolume (by omega)
  rw [Int.toNat_of_nonneg h.volumes_within.1.le]
  exact (volumesNeeded_bounds lower upper hvolume).2

end Spans

/-! ## In 64-bit steps -/

/-- The sum, or the end of the 64-bit integers that it lies beyond. -/
def saturatingSum (a b : Int64) : Int64 :=
  Int64.ofInt (max Int64.minValue.toInt (min (a.toInt + b.toInt) Int64.maxValue.toInt))

/-- The number of volumes as a quotient, one more where a rest is left. -/
def volumesInSteps (lower upper volume : Int64) : Option Int64 := do
  let span ← Numeral.fit (upper.toInt - lower.toInt)
  let quotient ← Numeral.fit (span.toInt.tdiv volume.toInt)
  let rest ← Numeral.fit (span.toInt.tmod volume.toInt)
  Numeral.fit (quotient.toInt + if rest = 0 then 0 else 1)

def tileInSteps (lower upper volume : Int64) (i : Nat) : Option Partition := do
  let place ← Numeral.fit i
  let offset ← Numeral.fit (place.toInt * volume.toInt)
  let start ← Numeral.fit (lower.toInt + offset.toInt)
  let stop := min (saturatingSum start volume).toInt upper.toInt
  some ⟨some start.toInt, some stop⟩

/-- The partitions as 64-bit arithmetic gives them, none if a step of it overflows. -/
def tilingInSteps (lower upper volume : Int64) : Option (List Partition) := do
  let count ← volumesInSteps lower upper volume
  let tiles ← (List.range count.toInt.toNat).mapM (tileInSteps lower upper volume)
  some (⟨none, some lower.toInt⟩ :: tiles ++ [⟨some upper.toInt, none⟩])

section Steps

variable {lower upper volume : Int64}

theorem exists_fit {n : Int} (hlower : -2 ^ 63 ≤ n) (hupper : n < 2 ^ 63) :
    ∃ w, Numeral.fit n = some w ∧ w.toInt = n := by
  have hbounds : Int64.minValue.toInt ≤ n ∧ n ≤ Int64.maxValue.toInt := by
    rw [Int64.toInt_minValue, Int64.toInt_maxValue]
    omega
  obtain ⟨w, hw⟩ := Numeral.exists_fit_iff.2 hbounds
  exact ⟨w, hw, Numeral.toInt_of_fit hw⟩

/-- Cut off at an upper bound, a saturated sum is the sum. -/
theorem min_saturatingSum {a b : Int64} (hb : 0 ≤ b.toInt) (upper : Int64) :
    min (saturatingSum a b).toInt upper.toInt = min (a.toInt + b.toInt) upper.toInt := by
  have ha : -2 ^ 63 ≤ a.toInt ∧ a.toInt < 2 ^ 63 := ⟨a.le_toInt, a.toInt_lt⟩
  have hupper := upper.toInt_lt
  unfold saturatingSum
  rw [Int64.toInt_minValue, Int64.toInt_maxValue, Int64.toInt_ofInt_of_le (by omega) (by omega)]
  omega

/-- Rounding up adds one to a quotient that leaves a rest. -/
theorem ediv_add_of_rest {span volume : Int} (hvolume : 0 < volume) :
    (span + volume - 1) / volume = span / volume + if span % volume = 0 then 0 else 1 := by
  have hdivision : span / volume * volume + span % volume = span := Int.ediv_mul_add_emod ..
  have hrest : 0 ≤ span % volume ∧ span % volume < volume :=
    ⟨Int.emod_nonneg _ hvolume.ne', Int.emod_lt_of_pos _ hvolume⟩
  rw [Int.ediv_eq_iff_of_pos hvolume, Int.add_mul]
  split_ifs <;> omega

theorem Spans.volumesInSteps_eq (h : Spans lower upper volume) :
    ∃ count, volumesInSteps lower upper volume = some count ∧
      count.toInt = volumesNeeded lower upper volume := by
  have hvolume := h.volume_pos
  have hle := h.volume_le
  obtain ⟨span, hfit⟩ := Numeral.exists_fit_iff.2 h.span_fits
  have hspan := Numeral.toInt_of_fit hfit
  have hmax := span.toInt_lt
  have hnonneg : 0 ≤ span.toInt := by omega
  have hquotient : 0 ≤ span.toInt / volume.toInt := Int.ediv_nonneg hnonneg hvolume.le
  have hquotientLe : span.toInt / volume.toInt ≤ span.toInt := Int.ediv_le_self _ hnonneg
  have hrest : 0 ≤ span.toInt % volume.toInt := Int.emod_nonneg _ hvolume.ne'
  have hrestLt : span.toInt % volume.toInt < volume.toInt := Int.emod_lt_of_pos _ hvolume
  obtain ⟨quotient, hquotientFit, hquotientEq⟩ := exists_fit (n := span.toInt / volume.toInt)
    (by omega) (by omega)
  obtain ⟨rest, hrestFit, hrestEq⟩ := exists_fit (n := span.toInt % volume.toInt)
    (by omega) (by omega)
  have hzero : rest = 0 ↔ span.toInt % volume.toInt = 0 := by
    rw [← hrestEq, ← Int64.toInt_inj]
    rfl
  have hcount : quotient.toInt + (if rest = 0 then 0 else 1) =
      volumesNeeded lower upper volume := by
    rw [volumesNeeded_eq hvolume, ← hspan, ediv_add_of_rest hvolume, hquotientEq]
    simp only [hzero]
  have hwithin := h.volumes_within
  obtain ⟨count, hcountFit, hcountEq⟩ := exists_fit (n := volumesNeeded lower upper volume)
    (by omega) (by omega)
  refine ⟨count, ?_, hcountEq⟩
  simp only [volumesInSteps, hfit, bind, Option.bind, Int.tdiv_eq_ediv_of_nonneg hnonneg,
    Int.tmod_eq_emod_of_nonneg hnonneg, hquotientFit, hrestFit, hcount, hcountFit]

/-- No tile starts at or above the upper bound, so none of its steps leaves 64 bits. -/
theorem CanCut.tileInSteps_eq (h : CanCut lower upper volume) {i : Nat}
    (hi : i < volumesNeeded lower upper volume) :
    tileInSteps lower upper volume i = some
      ⟨some (lower.toInt + i * volume.toInt),
        some (min (lower.toInt + i * volume.toInt + volume.toInt) upper.toInt)⟩ := by
  have hvolume := h.volume_pos
  have hmany := h.volumes_le
  have hstarts : i * volume.toInt < upper.toInt - lower.toInt := calc
    _ ≤ (volumesNeeded lower upper volume - 1) * volume.toInt :=
      Int.mul_le_mul_of_nonneg_right (by omega) hvolume.le
    _ < upper.toInt - lower.toInt := (volumesNeeded_bounds lower upper hvolume).1
  have hnonneg : 0 ≤ i * volume.toInt := Int.mul_nonneg (Int.natCast_nonneg i) hvolume.le
  have hlower := lower.le_toInt
  have hupper := upper.toInt_lt
  have hfits := h.span_fits.2
  rw [Int64.toInt_maxValue] at hfits
  obtain ⟨place, hplace, hplaceEq⟩ := exists_fit (n := i) (by omega) (by omega)
  obtain ⟨offset, hoffset, hoffsetEq⟩ := exists_fit (n := i * volume.toInt) (by omega) (by omega)
  obtain ⟨start, hstart, hstartEq⟩ := exists_fit (n := lower.toInt + i * volume.toInt)
    (by omega) (by omega)
  simp only [tileInSteps, hplace, bind, Option.bind, hplaceEq, hoffset, hoffsetEq, hstart,
    min_saturatingSum hvolume.le, hstartEq]

theorem mapM_eq_some_map {α β : Type} {xs : List α} {f : α → Option β} {g : α → β}
    (h : ∀ x ∈ xs, f x = some (g x)) : xs.mapM f = some (xs.map g) := by
  induction xs with
  | nil => rfl
  | cons x xs ih =>
    obtain ⟨hfirst, hrest⟩ := List.forall_mem_cons.1 h
    rw [List.mapM_cons, hfirst, ih hrest]
    rfl

/-- Settings that can be cut are cut without overflow. -/
theorem CanCut.tilingInSteps_eq (h : CanCut lower upper volume) :
    tilingInSteps lower upper volume = some (tilingOf lower upper volume) := by
  obtain ⟨count, hsteps, hcount⟩ := h.volumesInSteps_eq
  have htiles := mapM_eq_some_map fun i (hi : i ∈ List.range count.toInt.toNat) =>
    h.tileInSteps_eq (i := i) (by
      have := List.mem_range.1 hi
      omega)
  rw [hcount] at htiles
  simp only [tilingInSteps, hsteps, bind, Option.bind, hcount, htiles, tilingOf, Partition.tiling]

end Steps

section FixedSettings

variable {props : Properties} {lower upper volume : Int64} {partitions : List Partition}

/-- Settings that can be cut have their tiling. -/
theorem FixedSettings.okWhen (h : FixedSettings props lower upper volume) :
    OkWhen (CanCut lower upper volume) (tilingOf lower upper volume) (fixedPartitions props) := by
  unfold fixedPartitions
  rw [h.lower_eq, h.upper_eq, h.volume_eq]
  simp only [bind, Except.bind]
  -- Each check in turn refuses what breaks one condition, so the conditions hold after the last.
  by_cases hvolume : volume ≤ 0
  · rw [if_pos hvolume]
    refine .refused (fun hcut => ?_) rfl
    rw [Int64.le_iff_toInt_le] at hvolume
    exact absurd hcut.volume_pos (not_lt.2 hvolume)
  have hpositive : 0 < volume.toInt := by simpa [Int64.le_iff_toInt_le] using hvolume
  rw [if_neg hvolume]
  cases hfit : Numeral.fit (upper.toInt - lower.toInt) with
  | none =>
    refine .refused (fun hcut => ?_) rfl
    obtain ⟨span, hspan⟩ := Numeral.exists_fit_iff.2 hcut.span_fits
    cases hfit.symm.trans hspan
  | some span =>
    have hspan : span.toInt = upper.toInt - lower.toInt := Numeral.toInt_of_fit hfit
    have hsmaller : span < volume ↔ upper.toInt - lower.toInt < volume.toInt := by
      rw [Int64.lt_iff_toInt_lt, hspan]
    dsimp only
    rw [hspan, ← volumesNeeded_eq hpositive]
    by_cases hsmall : span < volume
    · rw [if_pos hsmall]
      exact .refused (fun hcut => absurd hcut.volume_le (not_le.2 (hsmaller.1 hsmall))) rfl
    rw [if_neg hsmall]
    by_cases hmany : maxPartitions < volumesNeeded lower upper volume
    · rw [if_pos hmany]
      exact .refused (fun hcut => absurd hcut.volumes_le (not_le.2 hmany)) rfl
    · rw [if_neg hmany]
      have hfits := Numeral.exists_fit_iff.1 ⟨span, hfit⟩
      have hle := not_lt.1 (hsmaller.not.1 hsmall)
      exact .ok ⟨⟨hpositive, hfits, hle⟩, not_lt.1 hmany⟩

theorem integer_of_print {algorithm key : String} {n : Int64}
    (h : props.get? key = some (Numeral.print n)) : props.integer algorithm key = .ok n := by
  unfold Properties.integer Properties.text Properties.text?
  rw [h, Option.bind_some, Numeral.content?_print]
  simp only [bind, Except.bind, Numeral.parse?_print]

/-- All bounds and volumes can be written. -/
theorem exists_props (lower upper volume : Int64) :
    ∃ props, FixedSettings props lower upper volume := by
  let props : Properties :=
    ((Dictionary.empty.insert "partition.lower" (Numeral.print lower)).insert "partition.upper"
      (Numeral.print upper)).insert "partition.volume" (Numeral.print volume)
  refine ⟨props, integer_of_print ?_, integer_of_print ?_, integer_of_print ?_⟩
  all_goals simp [props, Dictionary.get?_insert]

theorem exists_fixedSettings (h : fixedPartitions props = .ok partitions) :
    ∃ lower upper volume, FixedSettings props lower upper volume := by
  obtain ⟨lower, hlower, h⟩ := bind_eq_ok.1 h
  obtain ⟨upper, hupper, h⟩ := bind_eq_ok.1 h
  obtain ⟨volume, hvolume, _⟩ := bind_eq_ok.1 h
  exact ⟨lower, upper, volume, hlower, hupper, hvolume⟩

theorem placedBy_of_fixedPartitions (h : fixedPartitions props = .ok partitions) :
    ∃ place, Partition.PlacedBy place partitions := by
  obtain ⟨lower, upper, volume, hsettings⟩ := exists_fixedSettings h
  obtain ⟨hcut, rfl⟩ := hsettings.okWhen.eq_ok_iff.1 h
  exact ⟨_, hcut.placedBy⟩

/-- Fixed partitions in full, for all bounds and volumes. They are built for a positive volume that
goes into a span within 64 bits, into no more volumes than a 32-bit integer counts, and refused as a
fault of the configuration else; no step of counting or cutting overflows. Every integer lies in one
of them: the first below the lower bound, the last from the upper bound on, and else the one after
as many volumes as lie between the lower bound and the integer. Its target has that place, counted
around the names. -/
theorem fixedPartitions_place (lower upper volume : Int64) :
    (∃ props, FixedSettings props lower upper volume) ∧
      ∀ props, FixedSettings props lower upper volume →
        ((∃ partitions, fixedPartitions props = .ok partitions) ↔ CanCut lower upper volume) ∧
        (∀ fault, fixedPartitions props = .error fault → fault.kind = .configuration) ∧
        (Spans lower upper volume → ∃ count, volumesInSteps lower upper volume = some count ∧
          count.toInt = volumesNeeded lower upper volume) ∧
        ∀ partitions, fixedPartitions props = .ok partitions →
          tilingInSteps lower upper volume = some partitions ∧
            partitions.length = volumesNeeded lower upper volume + 2 ∧
            (∀ v : Int64, placeIn lower upper volume v.toInt < partitions.length ∧
              ∀ i (hi : i < partitions.length),
                partitions[i].contains v.toInt ↔ i = placeIn lower upper volume v.toInt) ∧
            ∀ available ≠ [], ∀ point v, point.value.number? = some v →
              ∃ target,
                available[placeIn lower upper volume v.toInt % available.length]? = some target ∧
                  (fixedRange props).precise available point = .ok (some target) := by
  refine ⟨exists_props lower upper volume, fun props h => ?_⟩
  refine ⟨h.okWhen.exists_ok_iff, fun _ => h.okWhen.kind_of_error, Spans.volumesInSteps_eq, ?_⟩
  intro partitions hpartitions
  obtain ⟨hcut, rfl⟩ := h.okWhen.eq_ok_iff.1 hpartitions
  have hplaced := hcut.placedBy
  refine ⟨hcut.tilingInSteps_eq, ?_, fun v => hplaced v.toInt, ?_⟩
  · rw [tilingOf, Partition.length_tiling, Nat.cast_add,
      Int.toNat_of_nonneg hcut.volumes_within.1.le]
    rfl
  · intro available hne point v hv
    refine ⟨_, targetAt_eq hne _, bind_eq_ok.2 ⟨_, hpartitions, ?_⟩⟩
    apply bind_eq_ok.2
    refine ⟨v, by rw [integer, hv], ?_⟩
    rw [hplaced.preciseTarget_eq, targetAt_eq hne]

end FixedSettings

/-- Settings next to the greatest integer, where the end of the last volume is beyond 64 bits. -/
def topSettings : Properties :=
  Dictionary.ofList [("partition.lower", "9223372036854775800"),
    ("partition.upper", "9223372036854775807"), ("partition.volume", "3")]

theorem volumesNeeded_topSettings : volumesNeeded 9223372036854775800 Int64.maxValue 3 = 3 := by
  rw [volumesNeeded_eq (by decide)]
  decide

theorem fixedSettings_topSettings :
    FixedSettings topSettings 9223372036854775800 Int64.maxValue 3 :=
  ⟨eq_ok_of_toOption (by decide), eq_ok_of_toOption (by decide),
    eq_ok_of_toOption (by decide)⟩

theorem canCut_topSettings : CanCut 9223372036854775800 Int64.maxValue 3 :=
  ⟨⟨by decide, by decide, by decide⟩, by rw [volumesNeeded_topSettings]; decide⟩

theorem fixedPartitions_place_topSettings :
    FixedSettings topSettings 9223372036854775800 Int64.maxValue 3 ∧
      CanCut 9223372036854775800 Int64.maxValue 3 ∧
      ∃ partitions, fixedPartitions topSettings = .ok partitions ∧ partitions.length = 5 ∧
        (fixedRange topSettings).precise ["a", "b", "c"] ⟨"t", "id", .int Int64.maxValue⟩ =
          .ok (some "b") := by
  obtain ⟨_, hsettings⟩ := fixedPartitions_place 9223372036854775800 Int64.maxValue 3
  obtain ⟨hbuilt, _, _, hplaces⟩ := hsettings topSettings fixedSettings_topSettings
  obtain ⟨partitions, hpartitions⟩ := hbuilt.2 canCut_topSettings
  obtain ⟨_, hlength, _, hprecise⟩ := hplaces partitions hpartitions
  obtain ⟨target, htarget, hfound⟩ := hprecise ["a", "b", "c"] (by decide)
    ⟨"t", "id", .int Int64.maxValue⟩ Int64.maxValue rfl
  refine ⟨fixedSettings_topSettings, canCut_topSettings, partitions, hpartitions, ?_, ?_⟩
  · rw [volumesNeeded_topSettings] at hlength
    exact_mod_cast hlength
  · have hplace : placeIn 9223372036854775800 Int64.maxValue 3 Int64.maxValue.toInt = 4 := by
      rw [placeIn, volumesNeeded_topSettings]
      decide
    rw [hplace] at htarget
    cases htarget
    exact hfound

end Sharding.Algorithm
