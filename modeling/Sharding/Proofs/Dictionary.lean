import Mathlib.Data.List.Induction
import Mathlib.Data.List.Sort
import Sharding.Dictionary
/-!
# Looking up entries

A dictionary is seen through `get?`: each key has the value that was inserted for it last, and the
entries are exactly what can be looked up.
-/

namespace Sharding.Dictionary

variable {α : Type}

theorem lookup_cons (k : String) (entry : String × α) (rest : List (String × α)) :
    (entry :: rest).lookup k = if k = entry.1 then some entry.2 else rest.lookup k := by
  rw [List.lookup_cons]
  by_cases hk : k = entry.1
  · rw [beq_iff_eq.2 hk, if_pos hk]
  · rw [beq_eq_false_iff_ne.2 hk, if_neg hk]

theorem lookup_place (key : String) (value : α) (entries : List (String × α)) (k : String) :
    (place key value entries).lookup k = if k = key then some value else entries.lookup k := by
  induction entries with
  | nil => exact lookup_cons k (key, value) []
  | cons entry rest ih =>
    unfold place
    by_cases hlt : key < entry.1
    · rw [if_pos hlt]
      exact lookup_cons k (key, value) (entry :: rest)
    · rw [if_neg hlt]
      by_cases heq : key = entry.1
      · rw [if_pos heq, lookup_cons, lookup_cons, ← heq]
        by_cases hk : k = key
        · rw [if_pos hk, if_pos hk]
        · rw [if_neg hk, if_neg hk, if_neg hk]
      · rw [if_neg heq, lookup_cons, lookup_cons, ih]
        by_cases hk : k = entry.1
        · rw [if_pos hk, if_neg (fun h => heq (h.symm.trans hk)), if_pos hk]
        · rw [if_neg hk, if_neg hk]

@[simp] theorem get?_empty (k : String) : (empty : Dictionary α).get? k = none := rfl

theorem get?_insert (d : Dictionary α) (key : String) (value : α) (k : String) :
    (d.insert key value).get? k = if k = key then some value else d.get? k :=
  lookup_place key value d.entries k

theorem lookup_eq_some_iff {entries : List (String × α)}
    (hascending : entries.Pairwise fun a b => a.1 < b.1) {k : String} {value : α} :
    entries.lookup k = some value ↔ (k, value) ∈ entries := by
  induction entries with
  | nil => simp
  | cons entry rest ih =>
    obtain ⟨habove, hrest⟩ := List.pairwise_cons.1 hascending
    obtain ⟨key, kept⟩ := entry
    rw [lookup_cons, List.mem_cons, Prod.mk.injEq]
    by_cases hk : k = key
    · subst hk
      have hnot : (k, value) ∉ rest := fun hmem => String.lt_irrefl k (habove (k, value) hmem)
      simp [hnot, eq_comm]
    · simp [hk, ih hrest]

theorem get?_eq_some_iff {d : Dictionary α} {k : String} {value : α} :
    d.get? k = some value ↔ (k, value) ∈ d.entries :=
  lookup_eq_some_iff d.ascending

theorem keys_ascending (d : Dictionary α) : d.keys.Pairwise (· < ·) :=
  List.pairwise_map.2 d.ascending

theorem keys_nodup (d : Dictionary α) : d.keys.Nodup :=
  d.keys_ascending.nodup

/-- The keys are in one order only. -/
theorem keys_eq {d e : Dictionary α} (h : ∀ k, k ∈ d.keys ↔ k ∈ e.keys) : d.keys = e.keys :=
  d.keys_ascending.eq_of_mem_iff e.keys_ascending h

theorem mem_keys_iff {d : Dictionary α} {k : String} :
    k ∈ d.keys ↔ ∃ value, d.get? k = some value := by
  simp only [keys, List.mem_map, get?_eq_some_iff, Prod.exists, exists_and_right, exists_eq_right]

/-- Dictionaries with related values under the same keys. -/
def Alike (R : α → α → Prop) (d e : Dictionary α) : Prop :=
  ∀ k, Option.Rel R (d.get? k) (e.get? k)

theorem Alike.keys_eq {R : α → α → Prop} {d e : Dictionary α} (h : Alike R d e) :
    d.keys = e.keys := by
  apply Dictionary.keys_eq
  intro k
  have hk := h k
  rw [mem_keys_iff, mem_keys_iff]
  generalize d.get? k = value at hk ⊢
  generalize e.get? k = other at hk ⊢
  cases hk with
  | none => rfl
  | some _ => simp

theorem Alike.isEmpty_eq {R : α → α → Prop} {d e : Dictionary α} (h : Alike R d e) :
    d.isEmpty = e.isEmpty := by
  have hkeys := congrArg List.isEmpty h.keys_eq
  rwa [keys, keys, List.isEmpty_map, List.isEmpty_map] at hkeys

theorem Alike.size_eq {R : α → α → Prop} {d e : Dictionary α} (h : Alike R d e) :
    d.size = e.size := by
  have hkeys := congrArg List.length h.keys_eq
  rwa [keys, keys, List.length_map, List.length_map] at hkeys

theorem isEmpty_iff {d : Dictionary α} : d.isEmpty ↔ ∀ k, d.get? k = none := by
  rw [isEmpty, List.isEmpty_iff]
  constructor
  · intro h k
    rw [get?, h]
    rfl
  · intro h
    refine List.eq_nil_iff_forall_not_mem.2 fun entry hmem => ?_
    have hsome := get?_eq_some_iff.2 hmem
    rw [h] at hsome
    cases hsome

/-! ## Entries inserted in turn -/

theorem entries_insert (d : Dictionary α) (key : String) (value : α) :
    (d.insert key value).entries = place key value d.entries := rfl

theorem ofList_append_singleton (entries : List (String × α)) (last : String × α) :
    ofList (entries ++ [last]) = (ofList entries).insert last.1 last.2 := by
  simp [ofList]

theorem ofList_filterMap_append_singleton {β : Type} (entry : β → Option (String × α)) (xs : List β)
    (last : β) :
    ofList ((xs ++ [last]).filterMap entry) =
      (entry last).elim (ofList (xs.filterMap entry)) (fun made =>
        (ofList (xs.filterMap entry)).insert made.1 made.2) := by
  rw [List.filterMap_append]
  cases hentry : entry last with
  | none => simp [hentry]
  | some made => simp [hentry, ofList_append_singleton]

theorem mem_of_get?_ofList {entries : List (String × α)} {k : String} {value : α}
    (h : (ofList entries).get? k = some value) : (k, value) ∈ entries := by
  induction entries using List.reverseRecOn with
  | nil => cases h
  | append_singleton entries last ih =>
    rw [ofList_append_singleton, get?_insert] at h
    by_cases hk : k = last.1
    · rw [if_pos hk] at h
      cases h
      exact List.mem_append_right _ (List.mem_singleton.2 (Prod.ext hk rfl))
    · rw [if_neg hk] at h
      exact List.mem_append_left _ (ih h)

theorem exists_get?_ofList {entries : List (String × α)} {k : String} {value : α}
    (h : (k, value) ∈ entries) : ∃ kept, (ofList entries).get? k = some kept := by
  induction entries using List.reverseRecOn with
  | nil => cases h
  | append_singleton entries last ih =>
    rw [ofList_append_singleton, get?_insert]
    by_cases hk : k = last.1
    · exact ⟨last.2, if_pos hk⟩
    · rw [if_neg hk]
      rcases List.mem_append.1 h with h | h
      · exact ih h
      · exact absurd (congrArg Prod.fst (List.mem_singleton.1 h)) hk

theorem isEmpty_ofList_iff {entries : List (String × α)} :
    (ofList entries).isEmpty ↔ entries = [] := by
  rw [isEmpty_iff]
  constructor
  · intro h
    refine List.eq_nil_iff_forall_not_mem.2 ?_
    rintro ⟨key, value⟩ hentry
    obtain ⟨kept, hkept⟩ := exists_get?_ofList hentry
    rw [h] at hkept
    cases hkept
  · rintro rfl k
    rfl

/-- Where no key has two values, related entries make related dictionaries, in whatever order they
are inserted. -/
theorem ofList_alike {R : α → α → Prop} {entries others : List (String × α)}
    (hone : ∀ {k a b}, (k, a) ∈ entries → (k, b) ∈ entries → a = b)
    (hthere : ∀ {k a}, (k, a) ∈ entries → ∃ b, (k, b) ∈ others ∧ R a b)
    (hback : ∀ {k b}, (k, b) ∈ others → ∃ a, (k, a) ∈ entries ∧ R a b) :
    Alike R (ofList entries) (ofList others) := by
  intro k
  cases hentry : (ofList entries).get? k with
  | none =>
    cases hother : (ofList others).get? k with
    | none => exact .none
    | some b =>
      obtain ⟨a, ha, _⟩ := hback (mem_of_get?_ofList hother)
      obtain ⟨kept, hkept⟩ := exists_get?_ofList ha
      cases hentry.symm.trans hkept
  | some a =>
    have ha := mem_of_get?_ofList hentry
    obtain ⟨b, hb, _⟩ := hthere ha
    obtain ⟨kept, hkept⟩ := exists_get?_ofList hb
    obtain ⟨same, hsame, hrel⟩ := hback (mem_of_get?_ofList hkept)
    rw [hkept, hone ha hsame]
    exact .some hrel

theorem place_of_lt {key : String} (value : α) {entries : List (String × α)}
    (h : ∀ entry ∈ entries, entry.1 < key) :
    place key value entries = entries ++ [(key, value)] := by
  induction entries with
  | nil => rfl
  | cons entry rest ih =>
    obtain ⟨hentry, hrest⟩ := List.forall_mem_cons.1 h
    have hnot : ¬key < entry.1 := String.lt_asymm hentry
    have hne : key ≠ entry.1 := fun heq => String.lt_irrefl key (heq ▸ hentry)
    rw [place, if_neg hnot, if_neg hne, ih hrest, List.cons_append]

theorem entries_ofList {entries : List (String × α)}
    (h : entries.Pairwise fun a b => a.1 < b.1) : (ofList entries).entries = entries := by
  induction entries using List.reverseRecOn with
  | nil => rfl
  | append_singleton entries last ih =>
    obtain ⟨hentries, _, hlast⟩ := List.pairwise_append.1 h
    rw [ofList_append_singleton, entries_insert, ih hentries]
    exact place_of_lt last.2 fun entry hentry => hlast entry hentry last (List.mem_singleton_self _)

theorem ofList_entries (d : Dictionary α) : ofList d.entries = d := by
  have hentries := entries_ofList d.ascending
  cases d
  cases hofList : ofList _
  rw [hofList] at hentries
  cases hentries
  rfl

end Sharding.Dictionary
