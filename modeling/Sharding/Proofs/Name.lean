import Sharding.Name
import Sharding.Proofs.Lists
/-!
# Lists of names as sets

What counts in a list of available names is which names it holds, in whatever spelling. Dropping
repeated names, sorting them and picking some of them are described here by what they hold.
-/

namespace Sharding

namespace Name

theorem toList_fold (name : String) : (fold name).toList = name.toList.map Char.toLower :=
  String.toList_map

theorem fold_fold (name : String) : fold (fold name) = fold name := by
  have hchar : Char.toLower ∘ Char.toLower = Char.toLower := by
    funext c
    unfold Function.comp Char.toLower
    grind
  rw [← String.toList_inj, toList_fold, toList_fold, List.map_map, hchar]

theorem fold_eq_iff {a b : String} : fold a = b ↔ a.toList.map Char.toLower = b.toList := by
  rw [← String.toList_inj, toList_fold]

/-- Names are compared character by character. -/
theorem same_eq (a b : String) :
    same a b = (a.toList.map Char.toLower == b.toList.map Char.toLower) := by
  rw [Bool.eq_iff_iff, same_iff, fold_eq_iff, toList_fold, beq_iff_eq]

theorem isIn_congr (names : List String) {a b : String} (h : fold a = fold b) :
    isIn names a = isIn names b := by
  simp only [isIn, h]

theorem isIn_of_mem {names : List String} {name : String} (h : name ∈ names) :
    isIn names name :=
  isIn_iff.2 ⟨name, h, rfl⟩

@[simp] theorem isIn_nil (name : String) : isIn [] name = false := rfl

theorem isIn_cons {first name : String} {names : List String} :
    isIn (first :: names) name ↔ fold first = fold name ∨ isIn names name := by
  simp [isIn]

theorem isIn_singleton {only name : String} : isIn [only] name ↔ fold only = fold name := by
  simp [isIn]

theorem contains_map_fold (names : List String) (name : String) :
    (names.map fold).contains (fold name) = isIn names name := by
  rw [Bool.eq_iff_iff, List.contains_iff_mem, List.mem_map, isIn_iff]

theorem find?_eq_some {names : List String} {name found : String}
    (h : find? names name = some found) : found ∈ names ∧ fold found = fold name := by
  have hfold := List.find?_some h
  exact ⟨List.mem_of_find?_eq_some h, by simpa using hfold⟩

theorem isSome_find? (names : List String) (name : String) :
    (find? names name).isSome = isIn names name := by
  rw [Bool.eq_iff_iff, find?, List.find?_isSome, isIn_iff]
  simp

theorem isIn_findAll {available sought : List String} {name : String} :
    isIn (findAll available sought) name ↔ isIn available name ∧ isIn sought name := by
  rw [findAll_eq]
  constructor
  · intro h
    obtain ⟨found, hfound, hname⟩ := isIn_iff.1 h
    obtain ⟨wanted, hwanted, hfind⟩ := List.mem_filterMap.1 hfound
    obtain ⟨hmem, hfold⟩ := find?_eq_some hfind
    exact ⟨isIn_iff.2 ⟨found, hmem, hname⟩, isIn_iff.2 ⟨wanted, hwanted, hfold ▸ hname⟩⟩
  · rintro ⟨havailable, hsought⟩
    obtain ⟨wanted, hwanted, hname⟩ := isIn_iff.1 hsought
    rw [← isIn_congr available hname, ← isSome_find?] at havailable
    obtain ⟨found, hfind⟩ := Option.isSome_iff_exists.1 havailable
    have hfold := (find?_eq_some hfind).2
    exact isIn_iff.2 ⟨found, List.mem_filterMap.2 ⟨wanted, hwanted, hfind⟩, hfold.trans hname⟩

/-! ## Distinct names -/

@[simp] theorem distinct_nil : distinct [] = [] := rfl

theorem keyed_cons (first : String) (names : List String) :
    keyed (first :: names) =
      (fold first, first) :: keyed (names.filter fun name => fold name != fold first) := by
  have hindex : (index names).filter (fun entry => (entry.1 == fold first) = false) =
      index (names.filter fun name => fold name != fold first) := by
    simp only [index, List.filter_map]
    congr 1
    refine List.filter_congr fun name _ => ?_
    by_cases heq : fold name = fold first <;> simp [heq]
  calc keyed (first :: names)
      = (fold first, first) ::
          ((index names).filter fun entry => (entry.1 == fold first) = false).eraseDupsBy
            fun a b => a.1 == b.1 := by
        simp only [keyed, index, List.map_cons, List.eraseDupsBy_cons]
    _ = (fold first, first) :: keyed (names.filter fun name => fold name != fold first) := by
        rw [hindex, keyed]

theorem distinct_cons (first : String) (names : List String) :
    distinct (first :: names) =
      first :: distinct (names.filter fun name => fold name != fold first) := by
  rw [distinct, keyed_cons, List.map_cons, distinct]

/-- The induction that drops the later spellings of each name. -/
theorem distinct_induction {motive : List String → Prop} (nil : motive [])
    (cons : ∀ first names, motive (names.filter fun name => fold name != fold first) →
      motive (first :: names)) (names : List String) : motive names := by
  match names with
  | [] => exact nil
  | first :: names => exact cons first names (distinct_induction nil cons _)
termination_by names.length
decreasing_by exact Nat.lt_succ_of_le (List.length_filter_le _ names)

theorem distinct_subset (names : List String) : distinct names ⊆ names := by
  induction names using distinct_induction with
  | nil => exact fun _ h => h
  | cons first names ih =>
    rw [distinct_cons]
    refine List.cons_subset_cons first fun name hname => ?_
    exact (List.mem_filter.1 (ih hname)).1

theorem isIn_filter_ne {names : List String} {first name : String} (h : fold first ≠ fold name) :
    isIn (names.filter fun other => fold other != fold first) name ↔ isIn names name := by
  simp only [isIn_iff, List.mem_filter, bne_iff_ne]
  constructor
  · rintro ⟨other, ⟨hother, _⟩, hname⟩
    exact ⟨other, hother, hname⟩
  · rintro ⟨other, hother, hname⟩
    exact ⟨other, ⟨hother, fun heq => h (heq.symm.trans hname)⟩, hname⟩

theorem isIn_distinct {names : List String} {name : String} :
    isIn (distinct names) name ↔ isIn names name := by
  induction names using distinct_induction with
  | nil => rfl
  | cons first names ih =>
    rw [distinct_cons, isIn_cons, isIn_cons, ih]
    by_cases heq : fold first = fold name
    · simp [heq]
    · simp [heq, isIn_filter_ne heq]

theorem pairwise_distinct (names : List String) :
    (distinct names).Pairwise fun a b => fold a ≠ fold b := by
  induction names using distinct_induction with
  | nil => exact .nil
  | cons first names ih =>
    rw [distinct_cons]
    refine List.pairwise_cons.2 ⟨fun name hname heq => ?_, ih⟩
    have hkept := (List.mem_filter.1 (distinct_subset _ hname)).2
    simp [heq] at hkept

theorem distinct_concat (names : List String) (name : String) :
    distinct (names ++ [name]) =
      if isIn names name then distinct names else distinct names ++ [name] := by
  induction names using distinct_induction with
  | nil => simp [distinct_cons]
  | cons first names ih =>
    rw [List.cons_append, distinct_cons, distinct_cons, List.filter_append]
    by_cases heq : fold first = fold name
    · rw [if_pos (isIn_cons.2 (.inl heq)), List.filter_cons_of_neg (by simp [heq]), List.filter_nil,
        List.append_nil]
    · rw [List.filter_cons_of_pos (by simpa using Ne.symm heq), List.filter_nil, ih]
      by_cases hin : isIn names name
      · rw [if_pos ((isIn_filter_ne heq).2 hin), if_pos (isIn_cons.2 (.inr hin))]
      · rw [if_neg (mt (isIn_filter_ne heq).1 hin), if_neg (by simp [isIn_cons, heq, hin])]
        rfl

theorem map_fold_distinct (names : List String) :
    (distinct names).map fold = (names.map fold).eraseDups := by
  induction names using distinct_induction with
  | nil => rfl
  | cons first names ih =>
    have hfilter : (names.filter fun name => fold name != fold first).map fold =
        (names.map fold).filter fun key => !key == fold first := by
      rw [List.filter_map]
      rfl
    rw [distinct_cons, List.map_cons, List.map_cons, List.eraseDups_cons, ih, hfilter]

theorem distinct_eq_nil {names : List String} : distinct names = [] ↔ names = [] := by
  cases names with
  | nil => simp
  | cons first names => simp [distinct_cons]

theorem isIn_canonical {names : List String} {name : String} :
    isIn (canonical names) name ↔ isIn names name := by
  have hsame : isIn (canonical names) name ↔ isIn (distinct names) name := by
    simp only [isIn_iff, mem_canonical]
  exact hsame.trans isIn_distinct

/-! ## Canonical lists -/

theorem find?_congr (names : List String) {a b : String} (h : fold a = fold b) :
    find? names a = find? names b := by
  simp only [find?, h]

/-- Of each name the first spelling is kept. -/
theorem find?_of_mem_distinct {names : List String} {name : String} (h : name ∈ distinct names) :
    find? names name = some name := by
  induction names using distinct_induction with
  | nil => exact absurd h List.not_mem_nil
  | cons first names ih =>
    rw [distinct_cons] at h
    rcases List.mem_cons.1 h with rfl | h
    · simp [find?]
    · have hother := (List.mem_filter.1 (distinct_subset _ h)).2
      rw [bne_iff_ne] at hother
      have hrest : find? (names.filter fun other => fold other != fold first) name =
          find? names name := by
        rw [find?, List.find?_filter, find?]
        congr 1
        funext other
        by_cases heq : fold other = fold name
        · simp [heq, hother]
        · simp [heq]
      calc find? (first :: names) name = find? names name := by simp [find?, Ne.symm hother]
        _ = some name := hrest ▸ ih h

theorem keyed_eq (names : List String) : keyed names = index (distinct names) := by
  induction names using distinct_induction with
  | nil => rfl
  | cons first names ih =>
    rw [keyed_cons, ih, distinct_cons]
    rfl

theorem canonical_eq (names : List String) :
    canonical names = (distinct names).mergeSort fun a b => fold a ≤ fold b := by
  have hentries : (index (distinct names)).map (·.2) = distinct names := by
    simp [index, Function.comp_def]
  rw [canonical, keyed_eq, List.map_mergeSort (s := fun a b => fold a ≤ fold b), hentries]
  intro a ha b hb
  obtain ⟨_, _, rfl⟩ := List.mem_map.1 ha
  obtain ⟨_, _, rfl⟩ := List.mem_map.1 hb
  rfl

theorem canonical_ascending (names : List String) :
    (canonical names).Pairwise fun a b => fold a < fold b := by
  have hperm := List.mergeSort_perm (distinct names) fun a b => fold a ≤ fold b
  have htrans (a b c : String) (hab : decide (fold a ≤ fold b)) (hbc : decide (fold b ≤ fold c)) :
      decide (fold a ≤ fold c) :=
    decide_eq_true (String.le_trans (of_decide_eq_true hab) (of_decide_eq_true hbc))
  have htotal (a b : String) : decide (fold a ≤ fold b) || decide (fold b ≤ fold a) := by
    simpa using String.le_total (fold a) (fold b)
  have hle : ((distinct names).mergeSort fun a b => fold a ≤ fold b).Pairwise
      fun a b => fold a ≤ fold b :=
    (List.pairwise_mergeSort htrans htotal _).imp of_decide_eq_true
  have hne : ((distinct names).mergeSort fun a b => fold a ≤ fold b).Pairwise
      fun a b => fold a ≠ fold b :=
    (hperm.pairwise_iff Ne.symm).2 (pairwise_distinct names)
  rw [canonical_eq]
  refine (hle.and hne).imp fun ⟨hle, hne⟩ => ?_
  exact Decidable.byContradiction fun hnot => hne (String.le_antisymm hle (String.not_lt.1 hnot))

end Name

end Sharding
