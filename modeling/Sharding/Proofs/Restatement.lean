import Mathlib.Data.List.Induction
import Mathlib.Data.List.Pairwise
import Sharding.Proofs.Hints
import Sharding.Proofs.Outcome
import Sharding.Proofs.Row
/-!
# Restated statements

The same can be said in other words: predicates in another order, the values of a list in another
order, names in another case. What counts is that each predicate is restated by another and
restates one.
-/

namespace Sharding

open Outcome

/-- In another order, with each entry put in other words. -/
def Rearranged {α : Type} (R : α → α → Prop) (entries others : List α) : Prop :=
  ∃ reordered, entries.Perm reordered ∧ List.Forall₂ R reordered others

section Rearranged

variable {α : Type} {R : α → α → Prop} {entries others : List α}

theorem Rearranged.exists_of_left (h : Rearranged R entries others) {a : α} (ha : a ∈ entries) :
    ∃ b ∈ others, R a b := by
  obtain ⟨reordered, hperm, hrel⟩ := h
  exact exists_mem_of_forall₂ hrel (hperm.mem_iff.1 ha)

theorem Rearranged.exists_of_right (h : Rearranged R entries others) {b : α} (hb : b ∈ others) :
    ∃ a ∈ entries, R a b := by
  obtain ⟨reordered, hperm, hrel⟩ := h
  obtain ⟨a, ha, hab⟩ := exists_mem_of_forall₂ hrel.flip hb
  exact ⟨a, hperm.mem_iff.2 ha, hab⟩

end Rearranged

/-! ## Predicates -/

namespace Predicate

/-- The predicate in other words: the names in any case, the values in any order. -/
inductive Restates : Predicate → Predicate → Prop where
  | list {table other column own : String} {values same : List Value}
      (tables : Name.same table other) (columns : Name.same column own)
      (members : SameMembers values same) :
      Restates (.list table column values) (.list other own same)
  | range {table other column own : String} (interval : Interval)
      (tables : Name.same table other) (columns : Name.same column own) :
      Restates (.range table column interval) (.range other own interval)
  | hint {table other : String} {values same : List Value} (tables : Name.same table other)
      (members : SameMembers values same) : Restates (.hint table values) (.hint other same)

variable {p q : Predicate}

theorem Restates.isHint_eq (h : p.Restates q) : p.isHint = q.isHint := by
  cases h <;> rfl

theorem Restates.fold_table (h : p.Restates q) : Name.fold p.table = Name.fold q.table := by
  cases h with
  | list tables columns members => exact Name.same_iff.1 tables
  | range interval tables columns => exact Name.same_iff.1 tables
  | hint tables members => exact Name.same_iff.1 tables

theorem Restates.fold_column (h : p.Restates q) : Name.fold p.column = Name.fold q.column := by
  cases h with
  | list tables columns members => exact Name.same_iff.1 columns
  | range interval tables columns => exact Name.same_iff.1 columns
  | hint tables members => rfl

theorem Restates.isAbout_eq (h : p.Restates q) (column : String) :
    p.isAbout column = q.isAbout column := by
  simp only [isAbout, Name.same, h.isHint_eq, h.fold_column]

/-- The predicates are about one column of one table. -/
def Overlaps (p q : Predicate) : Prop :=
  p.isHint = false ∧ q.isHint = false ∧ Name.same p.table q.table ∧ Name.same p.column q.column

theorem Overlaps.symm (h : p.Overlaps q) : q.Overlaps p := by
  obtain ⟨hp, hq, htable, hcolumn⟩ := h
  exact ⟨hq, hp, Name.same_iff.2 (Name.same_iff.1 htable).symm,
    Name.same_iff.2 (Name.same_iff.1 hcolumn).symm⟩

theorem Overlaps.eq (h : p.Overlaps q) {query : List Predicate}
    (honce : query.Pairwise fun p q => ¬p.Overlaps q) (hp : p ∈ query) (hq : q ∈ query) :
    p = q := by
  have hsymm : Std.Symm fun p q : Predicate => ¬p.Overlaps q := ⟨fun _ _ hpq hqp => hpq hqp.symm⟩
  by_contra hne
  exact honce.forall hp hq hne h

end Predicate

/-- Each predicate is restated by one of the others and each of the others restates one. -/
structure SayTheSame (query others : List Predicate) : Prop where
  restated : ∀ p ∈ query, ∃ q ∈ others, p.Restates q
  restates : ∀ q ∈ others, ∃ p ∈ query, p.Restates q

theorem Rearranged.sayTheSame {query others : List Predicate}
    (h : Rearranged Predicate.Restates query others) : SayTheSame query others :=
  ⟨fun _ hp => h.exists_of_left hp, fun _ hq => h.exists_of_right hq⟩

theorem SayTheSame.append {query others more same : List Predicate} (h : SayTheSame query others)
    (hmore : SayTheSame more same) : SayTheSame (query ++ more) (others ++ same) := by
  constructor
  · intro p hp
    rcases List.mem_append.1 hp with hp | hp
    · obtain ⟨q, hq, hpq⟩ := h.restated p hp
      exact ⟨q, List.mem_append_left _ hq, hpq⟩
    · obtain ⟨q, hq, hpq⟩ := hmore.restated p hp
      exact ⟨q, List.mem_append_right _ hq, hpq⟩
  · intro q hq
    rcases List.mem_append.1 hq with hq | hq
    · obtain ⟨p, hp, hpq⟩ := h.restates q hq
      exact ⟨p, List.mem_append_left _ hp, hpq⟩
    · obtain ⟨p, hp, hpq⟩ := hmore.restates q hq
      exact ⟨p, List.mem_append_right _ hp, hpq⟩

/-- No two predicates are about one column. -/
def SaidOnce (query : List Predicate) : Prop :=
  ∀ p ∈ query, ∀ q ∈ query, ∀ column, p.isAbout column → q.isAbout column → p = q

/-! ## Hints -/

/-- The hint in other words: the name of its table in any case. -/
def Hint.Restates (a b : Hint) : Prop :=
  a.level = b.level ∧ Name.same a.table b.table ∧ a.value = b.value

namespace Hints

/-- The hints added in turn. -/
def ofList (given : List Hint) : Hints :=
  given.foldl (fun hints hint => hints.add hint.level hint.table hint.value) empty

theorem mem_given_add {hints : Hints} {level : Level} {table : String} {value : Value}
    {hint : Hint} :
    hint ∈ (hints.add level table value).given ↔
      hint ∈ hints.given ∨ hint = ⟨level, Name.fold table, value⟩ := by
  unfold add
  dsimp only
  split
  · next hcontains =>
    rw [List.contains_iff_mem] at hcontains
    constructor
    · exact .inl
    · rintro (hmem | rfl)
      · exact hmem
      · exact hcontains
  · rw [List.mem_append, List.mem_singleton]

theorem mem_given_ofList {given : List Hint} {hint : Hint} :
    hint ∈ (ofList given).given ↔
      ∃ a ∈ given, hint = ⟨a.level, Name.fold a.table, a.value⟩ := by
  induction given using List.reverseRecOn with
  | nil => simp [ofList, empty]
  | append_singleton given last ih =>
    have hadd : ofList (given ++ [last]) = (ofList given).add last.level last.table last.value := by
      simp [ofList]
    rw [hadd, mem_given_add, ih]
    simp [or_and_right, exists_or]

theorem mem_values_ofList {given : List Hint} {level : Level} {name : String} {v : Value} :
    v ∈ (ofList given).values level name ↔
      ∃ a ∈ given, a.level = level ∧ Name.same a.table name ∧ a.value = v := by
  simp only [values, List.mem_map, List.mem_filter, mem_given_ofList, Bool.and_eq_true, beq_iff_eq,
    Name.same_iff]
  constructor
  · rintro ⟨_, ⟨⟨a, ha, rfl⟩, hlevel, htable⟩, hvalue⟩
    exact ⟨a, ha, hlevel, htable, hvalue⟩
  · rintro ⟨a, ha, hlevel, htable, hvalue⟩
    exact ⟨_, ⟨⟨a, ha, rfl⟩, hlevel, htable⟩, hvalue⟩

theorem mem_predicates {hints : Hints} {level : Level} {name : String} {p : Predicate} :
    p ∈ hints.predicates level name ↔
      hints.values level name ≠ [] ∧ p = .hinted name (hints.values level name) := by
  unfold predicates
  split
  · next hnil => simp [hnil]
  · next hne =>
    rw [List.mem_singleton]
    exact ⟨fun h => ⟨hne, h⟩, fun h => h.2⟩

/-- Hints that are restated give the same values. -/
theorem sameMembers_values {given others : List Hint}
    (h : Rearranged Hint.Restates given others) {name other : String}
    (hname : Name.same name other) (level : Level) :
    SameMembers ((ofList given).values level name) ((ofList others).values level other) := by
  intro v
  rw [mem_values_ofList, mem_values_ofList]
  constructor
  · rintro ⟨a, ha, hlevel, htable, hvalue⟩
    obtain ⟨b, hb, hlevels, htables, hvalues⟩ := h.exists_of_left ha
    refine ⟨b, hb, hlevels ▸ hlevel, ?_, hvalues ▸ hvalue⟩
    rw [Name.same_iff] at *
    rw [← htables, htable, hname]
  · rintro ⟨b, hb, hlevel, htable, hvalue⟩
    obtain ⟨a, ha, hlevels, htables, hvalues⟩ := h.exists_of_right hb
    refine ⟨a, ha, hlevels.trans hlevel, ?_, hvalues.trans hvalue⟩
    rw [Name.same_iff] at *
    rw [htables, htable, hname]

theorem sayTheSame_predicates {hints own : Hints} {level : Level} {name other : String}
    (hname : Name.same name other)
    (hvalues : SameMembers (hints.values level name) (own.values level other)) :
    SayTheSame (hints.predicates level name) (own.predicates level other) := by
  have hempty : hints.values level name ≠ [] ↔ own.values level other ≠ [] := by
    rw [ne_eq, ne_eq, ← List.isEmpty_iff, ← List.isEmpty_iff, hvalues.isEmpty_eq]
  have hrestates : (Predicate.hinted name (hints.values level name)).Restates
      (.hinted other (own.values level other)) := by
    apply Predicate.Restates.hint hname
    intro v
    rw [List.mem_eraseDups, List.mem_eraseDups]
    exact hvalues v
  constructor
  · intro p hp
    obtain ⟨hne, rfl⟩ := mem_predicates.1 hp
    exact ⟨_, mem_predicates.2 ⟨hempty.1 hne, rfl⟩, hrestates⟩
  · intro q hq
    obtain ⟨hne, rfl⟩ := mem_predicates.1 hq
    exact ⟨_, mem_predicates.2 ⟨hempty.2 hne, rfl⟩, hrestates⟩

end Hints

end Sharding
