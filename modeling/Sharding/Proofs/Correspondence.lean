import Sharding.Proofs.Name
/-!
# Corresponding names

Lists of names correspond when the names at each place are related, by a relation under which names
are the same on one side exactly when they are on the other. Such lists are alike in which of their
names repeat others, and in which names they hold.
-/

namespace Sharding.Name

/-- Related names are the same on one side exactly when they are on the other. -/
def Faithful (R : String → String → Prop) : Prop :=
  ∀ a b c d, R a b → R c d → (fold a = fold c ↔ fold b = fold d)

/-- Of two related names both are held or neither is. -/
def HeldAlike (R : String → String → Prop) (names others : List String) : Prop :=
  ∀ a b, R a b → (isIn names a ↔ isIn others b)

variable {R : String → String → Prop} {names others : List String}

theorem faithful_fold : Faithful fun a b => fold a = fold b := by
  intro a b c d hab hcd
  rw [hab, hcd]

theorem Faithful.heldAlike (hR : Faithful R) (h : List.Forall₂ R names others) :
    HeldAlike R names others := by
  intro a b hab
  induction h with
  | nil => rfl
  | cons hfirst _ ih => rw [isIn_cons, isIn_cons, ih, hR _ _ _ _ hfirst hab]

theorem Faithful.forall₂_distinct (hR : Faithful R) (h : List.Forall₂ R names others) :
    List.Forall₂ R (distinct names) (distinct others) := by
  induction names using distinct_induction generalizing others with
  | nil =>
    cases h
    exact .nil
  | cons first names ih =>
    obtain ⟨other, others, hfirst, hrest, rfl⟩ := List.forall₂_cons_left_iff.1 h
    rw [distinct_cons, distinct_cons]
    apply List.Forall₂.cons hfirst
    -- the later spellings of the first name stand at the same places on both sides
    apply ih
    apply List.rel_filter _ hrest
    intro a b hab
    simp only [bne_iff_ne, ne_eq]
    rw [hR _ _ _ _ hab hfirst]

/-- Two lists of the same names find the same name, each in its own spelling. -/
theorem find?_rel (h : List.Forall₂ (fun a b => fold a = fold b) names others) (name : String) :
    Option.Rel (fun a b => fold a = fold b) (find? names name) (find? others name) := by
  apply rel_find? h
  intro a b hab
  rw [hab]

end Sharding.Name
