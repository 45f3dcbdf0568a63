import Mathlib.Order.MinMax
import Sharding.Algorithm.Partition
/-!
# Places of integers

Partitions that follow each other without gap or overlap hold every integer at one place. The place
is told for the two ways in which partitions are cut: between ascending boundaries it is the number
of boundaries reached, in a tiling it is a quotient.
-/

namespace Sharding.Algorithm

theorem targetAt_eq {available : List String} (h : available ≠ []) (place : Nat) :
    targetAt available place =
      some (available.get ⟨place % available.length, Nat.mod_lt _ (List.length_pos_iff.2 h)⟩) :=
  List.getElem?_eq_getElem _

namespace Partition

/-- A range meets a partition in the integers that they share. -/
theorem intersects_iff {p : Partition} {low high : Int} :
    p.intersects low high ↔ ∃ n, low ≤ n ∧ n ≤ high ∧ p.contains n := by
  obtain ⟨lower, upper⟩ := p
  constructor
  · intro h
    refine ⟨max low (lower.getD low), le_max_left .., ?_, ?_⟩
    · cases lower <;> cases upper <;> simp [intersects] at h ⊢ <;> omega
    · cases lower <;> cases upper <;> simp [intersects, contains] at h ⊢ <;> omega
  · rintro ⟨n, hlow, hhigh, h⟩
    cases lower <;> cases upper <;> simp [contains, intersects] at h ⊢ <;> omega

/-- Every integer lies in the partition at its place and in no other. -/
def PlacedBy (place : Int → Nat) (partitions : List Partition) : Prop :=
  ∀ n, place n < partitions.length ∧
    ∀ i (h : i < partitions.length), partitions[i].contains n ↔ i = place n

section PlacedBy

variable {place : Int → Nat} {partitions : List Partition}

theorem PlacedBy.contains_iff (h : PlacedBy place partitions) {i : Nat} {p : Partition}
    (hp : partitions[i]? = some p) (n : Int) : p.contains n ↔ i = place n := by
  obtain ⟨hi, rfl⟩ := List.getElem?_eq_some_iff.1 hp
  exact (h n).2 i hi

theorem PlacedBy.exists_contains (h : PlacedBy place partitions) (n : Int) :
    ∃ p, partitions[place n]? = some p ∧ p.contains n := by
  obtain ⟨hlt, hplace⟩ := h n
  exact ⟨_, List.getElem?_eq_getElem hlt, (hplace _ hlt).2 rfl⟩

/-- The first partition that contains an integer is the one at its place. -/
theorem PlacedBy.preciseTarget_eq (h : PlacedBy place partitions) (available : List String)
    (n : Int) : preciseTarget partitions available n = targetAt available (place n) := by
  obtain ⟨hlt, hplace⟩ := h n
  have hfirst : partitions.findIdx? (·.contains n) = some (place n) := by
    apply List.findIdx?_eq_some_iff_getElem.2
    refine ⟨hlt, (hplace _ hlt).2 rfl, fun i hi hcontains => ?_⟩
    exact hi.ne ((hplace i (hi.trans hlt)).1 hcontains)
  rw [preciseTarget, hfirst]
  rfl

end PlacedBy

/-! ## Between boundaries -/

theorem length_between (lower : Option Int) (bounds : List Int) :
    (between lower bounds).length = bounds.length + 1 := by
  induction bounds generalizing lower with
  | nil => rfl
  | cons boundary bounds ih => rw [between, List.length_cons, ih, List.length_cons]

theorem countP_eq_zero_of_lt {bounds : List Int} {n : Int} (h : ∀ b ∈ bounds, n < b) :
    bounds.countP (· ≤ n) = 0 := by
  rw [List.countP_eq_zero]
  intro b hb
  have := h b hb
  simpa using this

/-- What lies between ascending boundaries is not below the first of them. -/
theorem le_of_contains_between {boundary : Int} {bounds : List Int}
    (hbounds : (boundary :: bounds).Pairwise (· < ·)) {i : Nat}
    {hi : i < (between (some boundary) bounds).length} {n : Int}
    (h : (between (some boundary) bounds)[i].contains n) : boundary ≤ n := by
  induction bounds generalizing boundary i with
  | nil =>
    have hzero : i = 0 := by simpa [between] using hi
    subst hzero
    simpa [between, contains] using h
  | cons next bounds ih =>
    obtain ⟨hfirst, hrest⟩ := List.pairwise_cons.1 hbounds
    cases i with
    | zero =>
      simp [between, contains] at h
      exact h.1
    | succ i =>
      have hnext : next ≤ n := ih hrest h
      have hlt : boundary < next := hfirst next List.mem_cons_self
      omega

/-- Above its lower end an integer lies in the partition that has as many boundaries before it as
the integer has reached. -/
theorem contains_between_iff {bounds : List Int} (hbounds : bounds.Pairwise (· < ·))
    {lower : Option Int} {n : Int} (hlower : lower.all (· ≤ n)) (i : Nat)
    (hi : i < (between lower bounds).length) :
    (between lower bounds)[i].contains n ↔ i = bounds.countP (· ≤ n) := by
  induction bounds generalizing lower i with
  | nil =>
    have hzero : i = 0 := by simpa [between] using hi
    subst hzero
    simp [between, contains, hlower]
  | cons boundary bounds ih =>
    obtain ⟨hfirst, hrest⟩ := List.pairwise_cons.1 hbounds
    rcases le_or_gt boundary n with hn | hn
    · rw [List.countP_cons_of_pos (by simpa using hn)]
      cases i with
      | zero => simp [between, contains, hn]
      | succ i =>
        have hlt : i < (between (some boundary) bounds).length := by simpa [between] using hi
        simpa [between] using ih hrest (by simpa using hn) i hlt
    · rw [countP_eq_zero_of_lt (List.forall_mem_cons.2 ⟨hn, fun b hb => hn.trans (hfirst b hb)⟩)]
      cases i with
      | zero => simp [between, contains, hlower, hn]
      | succ i =>
        simp only [Nat.succ_ne_zero, iff_false]
        intro hcontains
        exact hn.not_ge (le_of_contains_between hbounds hcontains)

theorem placedBy_between {bounds : List Int} (h : bounds.Pairwise (· < ·)) :
    PlacedBy (fun n => bounds.countP (· ≤ n)) (between none bounds) := by
  intro n
  refine ⟨?_, fun i hi => contains_between_iff h rfl i hi⟩
  rw [length_between]
  exact Nat.lt_succ_of_le List.countP_le_length

/-! ## In a tiling -/

/-- The place of an integer among partitions of one volume. -/
def placeInTiling (lower upper volume : Int) (count : Nat) (n : Int) : Nat :=
  if n < lower then 0
  else if upper ≤ n then count + 1
  else ((n - lower) / volume).toNat + 1

theorem length_tiling (lower upper volume : Int) (count : Nat) :
    (tiling lower upper volume count).length = count + 2 := by
  simp [tiling]

section Tiling

variable {lower upper volume : Int} {count : Nat}

theorem getElem_tiling_succ {i : Nat} (hi : i < count)
    (h : i + 1 < (tiling lower upper volume count).length) :
    (tiling lower upper volume count)[i + 1] =
      ⟨some (lower + i * volume), some (min (lower + i * volume + volume) upper)⟩ := by
  simp [tiling, hi]

theorem getElem_tiling_last (h : count + 1 < (tiling lower upper volume count).length) :
    (tiling lower upper volume count)[count + 1] = ⟨some upper, none⟩ := by
  simp [tiling]

/-- A tile holds the integers whose distance from the start has its number as quotient. -/
theorem contains_tile_iff (hvolume : 0 < volume) (i : Nat) (n : Int) :
    contains ⟨some (lower + i * volume), some (min (lower + i * volume + volume) upper)⟩ n ↔
      lower ≤ n ∧ n < upper ∧ i = ((n - lower) / volume).toNat := by
  have hstart : 0 ≤ i * volume := Int.mul_nonneg (Int.natCast_nonneg i) hvolume.le
  simp only [contains, Option.all_some, Bool.and_eq_true, decide_eq_true_eq]
  rcases lt_or_ge n lower with hlow | hlow
  · omega
  · have hquotient : 0 ≤ (n - lower) / volume := Int.ediv_nonneg (by omega) hvolume.le
    have hplace : i = ((n - lower) / volume).toNat ↔ (n - lower) / volume = i := by omega
    rw [hplace, Int.ediv_eq_iff_of_pos hvolume]
    omega

theorem quotient_lt (hvolume : 0 < volume) (hcount : upper - lower ≤ count * volume) {n : Int}
    (hlow : lower ≤ n) (hhigh : n < upper) : ((n - lower) / volume).toNat < count := by
  have hquotient : 0 ≤ (n - lower) / volume := Int.ediv_nonneg (by omega) hvolume.le
  have hlt : (n - lower) / volume < count := (Int.ediv_lt_iff_lt_mul hvolume).2 (by omega)
  omega

theorem contains_tiling_iff (hvolume : 0 < volume) (i : Nat)
    (hi : i < (tiling lower upper volume count).length) (n : Int) :
    (tiling lower upper volume count)[i].contains n ↔
      (i = 0 ∧ n < lower) ∨
        (i < count + 1 ∧ lower ≤ n ∧ n < upper ∧ i = ((n - lower) / volume).toNat + 1) ∨
        (i = count + 1 ∧ upper ≤ n) := by
  have hlength : i < count + 2 := length_tiling lower upper volume count ▸ hi
  match i with
  | 0 => simp [tiling, contains]
  | i + 1 =>
    rcases Nat.lt_or_ge i count with hinner | hlast
    · rw [getElem_tiling_succ hinner, contains_tile_iff hvolume]
      omega
    · obtain rfl : i = count := by omega
      rw [getElem_tiling_last]
      simp [contains]

theorem placedBy_tiling (hvolume : 0 < volume) (hspan : lower ≤ upper)
    (hcount : upper - lower ≤ count * volume) :
    PlacedBy (placeInTiling lower upper volume count) (tiling lower upper volume count) := by
  intro n
  have hinner : lower ≤ n → n < upper → ((n - lower) / volume).toNat < count :=
    quotient_lt hvolume hcount
  unfold placeInTiling
  refine ⟨?_, fun i hi => ?_⟩
  · rw [length_tiling]
    split_ifs with hlow hhigh
    · omega
    · omega
    · have := hinner (not_lt.1 hlow) (not_le.1 hhigh)
      omega
  · rw [contains_tiling_iff hvolume]
    split_ifs with hlow hhigh
    · omega
    · omega
    · have := hinner (not_lt.1 hlow) (not_le.1 hhigh)
      omega

end Tiling

end Partition

end Sharding.Algorithm
