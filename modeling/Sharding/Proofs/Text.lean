import Mathlib.Data.List.DropRight
import Sharding.Proofs.Name
import Sharding.Text.Alphabetic
import Sharding.Text.Blank
import Sharding.Text.Fields
/-!
# Text and space

Which characters are no space, and what is left of a text without the space at its ends.
-/

namespace Sharding.Text

/-- No code point lies in ranges of both lists. -/
def Apart (ranges others : List (Nat × Nat)) : Prop :=
  ∀ range ∈ ranges, ∀ other ∈ others, range.2 < other.1 ∨ other.2 < range.1

instance (ranges others : List (Nat × Nat)) : Decidable (Apart ranges others) :=
  decidable_of_iff ((ranges.all fun range => others.all fun other =>
    range.2.blt other.1 || other.2.blt range.1) = true) (by simp [Apart])

theorem Apart.within_eq_false {ranges others : List (Nat × Nat)} (h : Apart ranges others)
    {c : Char} (hc : within ranges c) : within others c = false := by
  rw [within, List.any_eq_true] at hc
  obtain ⟨range, hrange, hc⟩ := hc
  rw [within, List.any_eq_false]
  intro other hother
  have hapart := h range hrange other hother
  simp only [Bool.and_eq_true, decide_eq_true_eq] at hc ⊢
  omega

theorem alphabetic_apart_spaces : Apart alphabetic spaces := by decide +kernel

theorem digits_and_letters_apart_spaces : Apart [(48, 57), (65, 90), (97, 122)] spaces := by decide

theorem isDigit_iff {c : Char} : c.isDigit ↔ 48 ≤ c.toNat ∧ c.toNat ≤ 57 := by
  unfold Char.isDigit
  simp only [ge_iff_le, Bool.and_eq_true, decide_eq_true_eq, UInt32.le_iff_toNat_le]
  rfl

theorem isAlpha_iff {c : Char} :
    c.isAlpha ↔ (65 ≤ c.toNat ∧ c.toNat ≤ 90) ∨ (97 ≤ c.toNat ∧ c.toNat ≤ 122) := by
  unfold Char.isAlpha Char.isUpper Char.isLower
  simp only [ge_iff_le, Bool.or_eq_true, Bool.and_eq_true, decide_eq_true_eq,
    UInt32.le_iff_toNat_le]
  rfl

theorem isSpace_of_isDigit {c : Char} (h : c.isDigit) : isSpace c = false := by
  have hbounds := isDigit_iff.1 h
  apply digits_and_letters_apart_spaces.within_eq_false
  simp [within, hbounds]

theorem isSpace_of_isAlpha {c : Char} (h : c.isAlpha) : isSpace c = false := by
  have hbounds := isAlpha_iff.1 h
  apply digits_and_letters_apart_spaces.within_eq_false
  simpa [within] using hbounds.elim (fun h => .inr (.inl h)) (fun h => .inr (.inr h))

/-! ## Trimmed text -/

theorem toList_trim (s : String) :
    (trim s).toList = (s.toList.dropWhile isSpace).rdropWhile isSpace :=
  String.toList_ofList

theorem trim_isInfix (s : String) : (trim s).toList <:+: s.toList := by
  rw [toList_trim]
  exact (List.rdropWhile_prefix _ _).isInfix.trans (List.dropWhile_suffix _).isInfix

theorem trim_sublist (s : String) : (trim s).toList.Sublist s.toList :=
  (trim_isInfix s).sublist

theorem content?_eq_self {s : String} (htrim : trim s = s) (hblank : ¬isBlank s) :
    content? s = some s := by
  rw [content?, if_neg hblank, htrim]

theorem trim_eq_self {s : String} (h : ∀ c ∈ s.toList, isSpace c = false) : trim s = s := by
  have hfront : s.toList.dropWhile isSpace = s.toList :=
    List.dropWhile_eq_self_iff.2 fun hlength => by simp [h _ (List.getElem_mem hlength)]
  have hback : s.toList.rdropWhile isSpace = s.toList :=
    (List.rdropWhile_eq_self_iff ..).2 fun hne => by simp [h _ (List.getLast_mem hne)]
  rw [← String.toList_inj, toList_trim, hfront, hback]

theorem trim_trim (s : String) : trim (trim s) = trim s := by
  have hfront : (trim s).toList.dropWhile isSpace = (trim s).toList := by
    rw [toList_trim, List.dropWhile_eq_self_iff]
    intro hlength
    have hinitial := List.rdropWhile_prefix isSpace (s.toList.dropWhile isSpace)
    rw [hinitial.getElem hlength]
    exact List.dropWhile_get_zero_not _ _ _
  rw [← String.toList_inj, toList_trim (trim s), hfront, toList_trim, List.rdropWhile_idempotent]

theorem isBlank_trim (s : String) : isBlank (trim s) = isBlank s := by
  rw [Bool.eq_iff_iff, isBlank, isBlank, List.all_eq_true, List.all_eq_true, toList_trim,
    ← List.rdropWhile_eq_nil_iff, List.rdropWhile_idempotent, List.rdropWhile_eq_nil_iff,
    ← List.dropWhile_eq_nil_iff, List.dropWhile_idempotent, List.dropWhile_eq_nil_iff]

theorem content?_eq_some_iff {s t : String} :
    content? s = some t ↔ ¬isBlank s ∧ trim s = t := by
  rw [content?]
  by_cases hblank : isBlank s
  · simp [hblank]
  · simp [hblank]

/-- What is left of a text is trimmed and not blank. -/
theorem trimmed_of_content? {s t : String} (h : content? s = some t) :
    trim t = t ∧ ¬isBlank t := by
  obtain ⟨hblank, rfl⟩ := content?_eq_some_iff.1 h
  exact ⟨trim_trim s, by rwa [isBlank_trim]⟩

/-! ## Pieces of trimmed text -/

theorem rdropWhile_append_spaces {after : List Char} (hafter : ∀ c ∈ after, isSpace c)
    (cs : List Char) : (cs ++ after).rdropWhile isSpace = cs.rdropWhile isSpace := by
  have hreverse : ∀ c ∈ after.reverse, isSpace c := fun c hc => hafter c (List.mem_reverse.1 hc)
  unfold List.rdropWhile
  rw [List.reverse_append, List.dropWhile_append_of_pos hreverse]

/-- Space around a text makes no difference to what it is trimmed to. -/
theorem trim_ofList_append {before after : List Char} (hbefore : ∀ c ∈ before, isSpace c)
    (hafter : ∀ c ∈ after, isSpace c) (cs : List Char) :
    trim (String.ofList (before ++ cs ++ after)) = trim (String.ofList cs) := by
  rw [← String.toList_inj, toList_trim, toList_trim, String.toList_ofList, String.toList_ofList,
    List.append_assoc, List.dropWhile_append_of_pos hbefore, List.dropWhile_append]
  by_cases hblank : cs.dropWhile isSpace = []
  · rw [hblank, List.isEmpty_nil, if_pos rfl, List.dropWhile_eq_nil_iff.2 hafter]
  · rw [if_neg (by simpa using hblank), rdropWhile_append_spaces hafter]

theorem splitOn_prepend {before : List Char} (h : ',' ∉ before) (cs : List Char) :
    ∃ first rest, cs.splitOn ',' = first :: rest ∧
      (before ++ cs).splitOn ',' = (before ++ first) :: rest := by
  induction before with
  | nil =>
    obtain ⟨first, rest, hcs⟩ := List.exists_cons_of_ne_nil (List.splitOn_ne_nil ',' cs)
    exact ⟨first, rest, hcs, hcs⟩
  | cons c before ih =>
    obtain ⟨hc, hbefore⟩ := not_or.1 (mt List.mem_cons.2 h)
    obtain ⟨first, rest, hcs, hsplit⟩ := ih hbefore
    refine ⟨first, rest, hcs, ?_⟩
    have hmiss : (c == ',') = false := beq_false_of_ne (Ne.symm hc)
    rw [List.cons_append, List.splitOn_cons_eq_if_modifyHead, hmiss, hsplit]
    rfl

theorem splitOn_append {after : List Char} (h : ',' ∉ after) (cs : List Char) :
    ∃ init last, cs.splitOn ',' = init ++ [last] ∧
      (cs ++ after).splitOn ',' = init ++ [last ++ after] := by
  induction cs with
  | nil => exact ⟨[], [], List.splitOn_nil _, List.splitOn_eq_singleton h⟩
  | cons c cs ih =>
    obtain ⟨init, last, hcs, hsplit⟩ := ih
    rw [List.cons_append, List.splitOn_cons_eq_if_modifyHead, List.splitOn_cons_eq_if_modifyHead,
      hcs, hsplit]
    by_cases hc : c = ','
    · exact ⟨[] :: init, last, by simp [hc], by simp [hc]⟩
    · cases init with
      | nil => exact ⟨[], c :: last, by simp [hc], by simp [hc]⟩
      | cons first init => exact ⟨(c :: first) :: init, last, by simp [hc], by simp [hc]⟩

theorem comma_notMem {cs : List Char} (h : ∀ c ∈ cs, isSpace c) : ',' ∉ cs := by
  intro hmem
  have hcomma : isSpace ',' = false := by decide
  rw [h ',' hmem] at hcomma
  cases hcomma

/-- A trimmed text has the same trimmed pieces. -/
theorem map_trim_pieces_trim (s : String) : (pieces (trim s)).map trim = (pieces s).map trim := by
  let front := s.toList.takeWhile isSpace
  let back := (s.toList.dropWhile isSpace).rtakeWhile isSpace
  have hfront : ∀ c ∈ front, isSpace c := fun c hc => List.mem_takeWhile_imp hc
  have hback : ∀ c ∈ back, isSpace c := fun c hc => List.mem_rtakeWhile_imp hc
  have hsplit : s.toList = front ++ ((trim s).toList ++ back) := by
    rw [toList_trim, List.rdropWhile_append_rtakeWhile, List.takeWhile_append_dropWhile]
  have hbefore (piece : List Char) :
      trim (String.ofList (front ++ piece)) = trim (String.ofList piece) := by
    simpa using trim_ofList_append hfront (List.forall_mem_nil _) piece
  have hafter (piece : List Char) :
      trim (String.ofList (piece ++ back)) = trim (String.ofList piece) :=
    trim_ofList_append (List.forall_mem_nil _) hback piece
  obtain ⟨init, last, htrimmed, happended⟩ :=
    splitOn_append (comma_notMem hback) (trim s).toList
  obtain ⟨first, rest, hpieces, hprepended⟩ :=
    splitOn_prepend (comma_notMem hfront) ((trim s).toList ++ back)
  have hfirst : ((front ++ first) :: rest).map (fun piece => trim (String.ofList piece)) =
      (init ++ [last ++ back]).map fun piece => trim (String.ofList piece) := by
    rw [← happended, hpieces, List.map_cons, hbefore, List.map_cons]
  simp only [pieces, List.map_map, Function.comp_def]
  rw [hsplit, hprepended, htrimmed, hfirst, List.map_append, List.map_append, List.map_singleton,
    List.map_singleton, hafter]

theorem isAlpha_toLower {c : Char} (h : c.val ≥ 'A'.val ∧ c.val ≤ 'Z'.val) :
    c.toLower.isAlpha := by
  have hbounds : 65 ≤ c.val.toNat ∧ c.val.toNat ≤ 90 := h
  have hlower : (c.val + ('a'.val - 'A'.val)).toNat = c.val.toNat + 32 := by
    rw [UInt32.toNat_add]
    show (c.val.toNat + 32) % 2 ^ 32 = c.val.toNat + 32
    omega
  unfold Char.toLower
  rw [isAlpha_iff, dif_pos h]
  right
  show 97 ≤ (c.val + _).toNat ∧ (c.val + _).toNat ≤ 122
  omega

theorem isSpace_of_isSpace_toLower {c : Char} (h : isSpace c.toLower) : isSpace c := by
  by_cases hupper : c.val ≥ 'A'.val ∧ c.val ≤ 'Z'.val
  · rw [isSpace_of_isAlpha (isAlpha_toLower hupper)] at h
    cases h
  · unfold Char.toLower at h
    rwa [dif_neg hupper] at h

theorem toLower_of_isSpace {c : Char} (h : isSpace c) : c.toLower = c := by
  unfold Char.toLower
  rw [dif_neg]
  intro hupper
  have halpha : c.isAlpha := by
    have hbounds : 65 ≤ c.val.toNat ∧ c.val.toNat ≤ 90 := hupper
    exact isAlpha_iff.2 (.inl hbounds)
  rw [isSpace_of_isAlpha halpha] at h
  cases h

theorem isSpace_toLower (c : Char) : isSpace c.toLower = isSpace c := by
  rw [Bool.eq_iff_iff]
  constructor
  · exact isSpace_of_isSpace_toLower
  · intro h
    rwa [toLower_of_isSpace h]

/-- Space has no case. -/
theorem fold_trim (s : String) : Name.fold (trim s) = trim (Name.fold s) := by
  have hspace : isSpace ∘ Char.toLower = isSpace := funext isSpace_toLower
  unfold trim
  rw [← String.toList_inj, Name.toList_fold, String.toList_ofList, String.toList_ofList,
    Name.toList_fold, List.dropWhile_map, hspace, ← List.map_reverse, List.dropWhile_map, hspace,
    ← List.map_reverse]

theorem not_isBlank_fold {s : String} (h : ¬isBlank s) : ¬isBlank (Name.fold s) := by
  intro hfold
  refine h (List.all_eq_true.2 fun c hc => isSpace_of_isSpace_toLower ?_)
  apply List.all_eq_true.1 hfold
  rw [Name.toList_fold]
  exact List.mem_map_of_mem hc

end Sharding.Text
