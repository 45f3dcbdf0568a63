import Mathlib.Data.List.Forall2
import Mathlib.Data.List.Induction
/-!
# Lists

Lists whose entries are related place by place, the first of each entry of a list, lists that a
separator cuts in two, and lists put together again from their parts.
-/

namespace Sharding

/-! ## Place by place -/

section Related

variable {α β γ : Type} {xs : List α} {ys : List β}

theorem map_eq_map_iff_forall₂ {f : α → γ} {g : β → γ} :
    xs.map f = ys.map g ↔ List.Forall₂ (fun a b => f a = g b) xs ys := by
  rw [← List.forall₂_eq_eq_eq, List.forall₂_map_left_iff, List.forall₂_map_right_iff]

/-- Related lists find related entries. -/
theorem rel_find? {R : α → β → Prop} {p : α → Bool} {q : β → Bool} (h : List.Forall₂ R xs ys)
    (hpq : ∀ a b, R a b → p a = q b) : Option.Rel R (xs.find? p) (ys.find? q) := by
  induction h with
  | nil => exact .none
  | @cons a b _ _ hab _ ih =>
    rw [List.find?_cons, List.find?_cons, hpq a b hab]
    cases q b with
    | true => exact .some hab
    | false => exact ih

end Related

/-! ## Repeated entries -/

section Repeated

variable {α : Type} [DecidableEq α]

theorem nodup_eraseDups (xs : List α) : xs.eraseDups.Nodup := by
  match xs with
  | [] => exact List.nodup_nil
  | first :: xs =>
    rw [List.eraseDups_cons]
    refine List.nodup_cons.2 ⟨?_, nodup_eraseDups _⟩
    rw [List.mem_eraseDups, List.mem_filter]
    simp
termination_by xs.length
decreasing_by exact Nat.lt_succ_of_le (List.length_filter_le _ xs)

theorem eraseDups_concat (xs : List α) (x : α) :
    (xs ++ [x]).eraseDups = if x ∈ xs then xs.eraseDups else xs.eraseDups ++ [x] := by
  rw [List.eraseDups_append, List.removeAll]
  split
  · next h => simp [h]
  · next h => simp [h, List.eraseDups_cons]

theorem eraseDups_eraseDups (xs : List α) : xs.eraseDups.eraseDups = xs.eraseDups := by
  induction xs using List.reverseRecOn with
  | nil => rfl
  | append_singleton xs x ih =>
    rw [eraseDups_concat]
    split
    · exact ih
    · next h => rw [eraseDups_concat, if_neg (h ∘ List.mem_eraseDups.1), ih]

end Repeated

/-! ## Separators -/

section Separated

variable {α : Type} [DecidableEq α] {a : α} {xs left right : List α}

theorem length_splitOn (a : α) (xs : List α) : (xs.splitOn a).length = xs.count a + 1 := by
  induction xs with
  | nil => rfl
  | cons x xs ih =>
    rw [List.splitOn_cons_eq_if_modifyHead, List.count_cons]
    split
    · rw [List.length_cons, ih]
    · rw [List.length_modifyHead, ih]

/-- A list is cut in two at the only place that holds the separator. -/
theorem splitOn_eq_pair_iff :
    xs.splitOn a = [left, right] ↔ xs = left ++ a :: right ∧ a ∉ left ∧ a ∉ right := by
  constructor
  · intro h
    have hjoined : xs = left ++ a :: right := by
      have hpieces : [a].intercalate (xs.splitOn a) = xs := List.intercalate_splitOn a
      simpa [h] using hpieces.symm
    have hcount := length_splitOn a xs
    rw [h, hjoined, List.count_append, List.count_cons_self] at hcount
    simp only [List.length_cons, List.length_nil] at hcount
    exact ⟨hjoined, List.count_eq_zero.1 (by omega), List.count_eq_zero.1 (by omega)⟩
  · rintro ⟨rfl, hleft, hright⟩
    rw [List.splitOn_append_cons_self_of_not_mem hleft, List.splitOn_eq_singleton hright]

end Separated

/-! ## Parts -/

/-- Parts that share no entry and leave none out have all entries of a list. -/
theorem flatMap_filter_perm {α κ : Type} {p : κ → α → Bool} {keys : List κ} {xs : List α}
    (hapart : keys.Pairwise fun a b => ∀ x ∈ xs, p a x → p b x = false)
    (hall : ∀ x ∈ xs, ∃ key ∈ keys, p key x) :
    (keys.flatMap fun key => xs.filter (p key)).Perm xs := by
  induction keys generalizing xs with
  | nil =>
    cases xs with
    | nil => exact .nil
    | cons x xs =>
      obtain ⟨_, hkey, _⟩ := hall x List.mem_cons_self
      cases hkey
  | cons key keys ih =>
    obtain ⟨hkey, hapart⟩ := List.pairwise_cons.1 hapart
    -- the other parts are parts of what the first one leaves
    have hothers : ∀ other ∈ keys,
        xs.filter (p other) = (xs.filter fun x => !p key x).filter (p other) := by
      intro other hother
      rw [List.filter_filter]
      refine List.filter_congr fun x hx => ?_
      cases hpx : p key x with
      | true => simp [hkey other hother x hx hpx]
      | false => simp
    have hleft : ∀ x ∈ xs.filter (fun x => !p key x), ∃ other ∈ keys, p other x := by
      intro x hx
      obtain ⟨hmem, hnot⟩ := List.mem_filter.1 hx
      obtain ⟨other, hother, hpx⟩ := hall x hmem
      rcases List.mem_cons.1 hother with rfl | hother
      · simp [hpx] at hnot
      · exact ⟨other, hother, hpx⟩
    have hrest := ih (hapart.imp fun h x hx => h x (List.mem_of_mem_filter hx)) hleft
    rw [List.flatMap_cons, List.flatMap_congr hothers]
    exact (hrest.append_left _).trans (List.filter_append_perm (p key) xs)

end Sharding
