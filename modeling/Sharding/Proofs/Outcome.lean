import Mathlib.Data.List.Forall2
import Sharding.Fault.Basic
/-!
# Outcomes

What succeeds in steps succeeded in each of them. Two outcomes agree when both succeed with related
results or both fail for a fault of one kind; steps that agree compose.
-/

namespace Sharding.Outcome

variable {ε α β γ δ : Type}

theorem eq_ok_of_toOption {x : Except ε α} {a : α} (h : x.toOption = some a) : x = .ok a := by
  cases x with
  | error e => cases h
  | ok b => exact congrArg _ (Option.some.inj h)

theorem bind_eq_ok {x : Except ε α} {f : α → Except ε β} {b : β} :
    x >>= f = .ok b ↔ ∃ a, x = .ok a ∧ f a = .ok b := by
  cases x with
  | error e => exact ⟨fun h => (nomatch h), fun ⟨_, h, _⟩ => (nomatch h)⟩
  | ok a => exact ⟨fun h => ⟨a, rfl, h⟩, fun ⟨_, rfl, h⟩ => h⟩

theorem map_eq_ok {x : Except ε α} {f : α → β} {b : β} :
    f <$> x = .ok b ↔ ∃ a, x = .ok a ∧ f a = b := by
  cases x with
  | error e => exact ⟨fun h => (nomatch h), fun ⟨_, h, _⟩ => (nomatch h)⟩
  | ok a => exact ⟨fun h => ⟨a, rfl, Except.ok.inj h⟩, fun ⟨_, rfl, h⟩ => congrArg _ h⟩

theorem bind_eq_error {x : Except ε α} {f : α → Except ε β} {e : ε} :
    x >>= f = .error e ↔ x = .error e ∨ ∃ a, x = .ok a ∧ f a = .error e := by
  cases x with
  | error first =>
    constructor
    · intro h
      exact .inl (congrArg _ (Except.error.inj h))
    · rintro (h | ⟨_, h, _⟩)
      · exact congrArg _ (Except.error.inj h)
      · cases h
  | ok a =>
    constructor
    · intro h
      exact .inr ⟨a, rfl, h⟩
    · rintro (h | ⟨_, ha, h⟩)
      · cases h
      · cases ha
        exact h

theorem map_eq_error {x : Except ε α} {f : α → β} {e : ε} : f <$> x = .error e ↔ x = .error e := by
  cases x with
  | error e' =>
    exact ⟨fun h => congrArg _ (Except.error.inj h), fun h => congrArg _ (Except.error.inj h)⟩
  | ok a => exact ⟨fun h => (nomatch h), fun h => (nomatch h)⟩

theorem mapM_eq_ok {xs : List α} {f : α → Except ε β} {ys : List β} :
    xs.mapM f = .ok ys ↔ List.Forall₂ (fun x y => f x = .ok y) xs ys := by
  induction xs generalizing ys with
  | nil =>
    rw [List.mapM_nil, List.forall₂_nil_left_iff]
    exact ⟨fun h => (Except.ok.inj h).symm, fun h => congrArg _ h.symm⟩
  | cons x xs ih =>
    rw [List.mapM_cons, List.forall₂_cons_left_iff]
    constructor
    · intro h
      obtain ⟨y, hy, h⟩ := bind_eq_ok.1 h
      obtain ⟨rest, hrest, h⟩ := bind_eq_ok.1 h
      exact ⟨y, rest, hy, ih.1 hrest, (Except.ok.inj h).symm⟩
    · rintro ⟨y, rest, hy, hrest, rfl⟩
      exact bind_eq_ok.2 ⟨y, hy, bind_eq_ok.2 ⟨rest, ih.2 hrest, rfl⟩⟩

/-- In lists that are related place by place each member has a related one. -/
theorem exists_mem_of_forall₂ {R : α → β → Prop} {xs : List α} {ys : List β}
    (h : List.Forall₂ R xs ys) {x : α} (hx : x ∈ xs) : ∃ y ∈ ys, R x y := by
  induction h with
  | nil => cases hx
  | cons hfirst _ ih =>
    rcases List.mem_cons.1 hx with rfl | hx
    · exact ⟨_, List.mem_cons_self, hfirst⟩
    · obtain ⟨y, hy, hrel⟩ := ih hx
      exact ⟨y, List.mem_cons_of_mem _ hy, hrel⟩

theorem mem_of_mapM {xs : List α} {f : α → Except ε β} {ys : List β} (h : xs.mapM f = .ok ys)
    {y : β} : y ∈ ys ↔ ∃ x ∈ xs, f x = .ok y := by
  induction xs generalizing ys with
  | nil =>
    cases h
    simp
  | cons x xs ih =>
    rw [List.mapM_cons] at h
    obtain ⟨first, hfirst, h⟩ := bind_eq_ok.1 h
    obtain ⟨rest, hrest, h⟩ := bind_eq_ok.1 h
    cases h
    simp only [List.mem_cons, ih hrest, exists_eq_or_imp, hfirst, Except.ok.injEq]
    rw [eq_comm]

theorem exists_of_mapM {xs : List α} {f : α → Except ε β} {ys : List β} (h : xs.mapM f = .ok ys)
    {x : α} (hx : x ∈ xs) : ∃ y, f x = .ok y := by
  obtain ⟨y, _, hy⟩ := exists_mem_of_forall₂ (mapM_eq_ok.1 h) hx
  exact ⟨y, hy⟩

theorem exists_mapM_iff {xs : List α} {f : α → Except ε β} :
    (∃ ys, xs.mapM f = .ok ys) ↔ ∀ x ∈ xs, ∃ y, f x = .ok y := by
  constructor
  · rintro ⟨ys, hys⟩ x hx
    exact exists_of_mapM hys hx
  · intro h
    induction xs with
    | nil => exact ⟨[], rfl⟩
    | cons x xs ih =>
      obtain ⟨⟨y, hy⟩, hrest⟩ := List.forall_mem_cons.1 h
      obtain ⟨ys, hys⟩ := ih hrest
      rw [List.mapM_cons]
      exact ⟨y :: ys, bind_eq_ok.2 ⟨y, hy, bind_eq_ok.2 ⟨ys, hys, rfl⟩⟩⟩

/-- What fails step by step failed in one of the steps. -/
theorem exists_of_mapM_error {xs : List α} {f : α → Except ε β} {e : ε}
    (h : xs.mapM f = .error e) : ∃ x ∈ xs, f x = .error e := by
  induction xs with
  | nil => cases h
  | cons x xs ih =>
    rw [List.mapM_cons] at h
    rcases bind_eq_error.1 h with hfirst | ⟨y, _, h⟩
    · exact ⟨x, List.mem_cons_self, hfirst⟩
    · rcases bind_eq_error.1 h with hrest | ⟨ys, _, h⟩
      · obtain ⟨other, hother, herror⟩ := ih hrest
        exact ⟨other, List.mem_cons_of_mem x hother, herror⟩
      · cases h

theorem exists_map_iff {x : Except ε α} {f : α → β} :
    (∃ b, f <$> x = .ok b) ↔ ∃ a, x = .ok a := by
  constructor
  · rintro ⟨_, h⟩
    obtain ⟨a, ha, _⟩ := map_eq_ok.1 h
    exact ⟨a, ha⟩
  · rintro ⟨a, ha⟩
    exact ⟨f a, map_eq_ok.2 ⟨a, ha, rfl⟩⟩

theorem exists_bind_iff {x : Except ε α} {f : α → β} :
    (∃ b, (x >>= fun a => .ok (f a)) = .ok b) ↔ ∃ a, x = .ok a := by
  constructor
  · rintro ⟨_, h⟩
    obtain ⟨a, ha, _⟩ := bind_eq_ok.1 h
    exact ⟨a, ha⟩
  · rintro ⟨a, ha⟩
    exact ⟨f a, bind_eq_ok.2 ⟨a, ha, rfl⟩⟩

/-- What is left of the results that may be nothing. -/
theorem mem_filterMap_of_mapM {xs : List α} {f : α → Except ε (Option β)} {ys : List (Option β)}
    (h : xs.mapM f = .ok ys) {b : β} : b ∈ ys.filterMap id ↔ ∃ x ∈ xs, f x = .ok (some b) := by
  simp only [List.mem_filterMap, id_eq, exists_eq_right]
  exact mem_of_mapM h

theorem exists_of_rel_some {R : α → β → Prop} {a : α} {y : Option β}
    (h : Option.Rel R (some a) y) : ∃ b, y = some b ∧ R a b := by
  cases h with
  | some hab => exact ⟨_, rfl, hab⟩

theorem exists_of_rel_some_right {R : α → β → Prop} {x : Option α} {b : β}
    (h : Option.Rel R x (some b)) : ∃ a, x = some a ∧ R a b := by
  cases h with
  | some hab => exact ⟨_, rfl, hab⟩

theorem exists_of_optionMapM {x : Option α} {f : α → Except ε β} {y : Option β}
    (h : x.mapM f = .ok y) {b : β} (hy : y = some b) : ∃ a, f a = .ok b := by
  cases x with
  | none =>
    cases h
    cases hy
  | some a =>
    rw [Option.mapM_some] at h
    obtain ⟨b', hb, rfl⟩ := map_eq_ok.1 h
    cases hy
    exact ⟨a, hb⟩

/-! ## Success on a condition -/

/-- The outcome is a value if a condition holds, else a fault of the configuration. -/
inductive OkWhen (p : Prop) (a : α) : Except Fault α → Prop where
  | ok (h : p) : OkWhen p a (.ok a)
  | refused (h : ¬p) {fault : Fault} (kind : fault.kind = .configuration) :
      OkWhen p a (.error fault)

section OkWhen

variable {p : Prop} {a : α} {x : Except Fault α}

theorem OkWhen.eq_ok_iff (h : OkWhen p a x) {b : α} : x = .ok b ↔ p ∧ b = a := by
  cases h with
  | ok h => simp [h, eq_comm]
  | refused h => simp [h]

theorem OkWhen.exists_ok_iff (h : OkWhen p a x) : (∃ b, x = .ok b) ↔ p := by
  simp only [h.eq_ok_iff, exists_and_left, exists_eq, and_true]

theorem OkWhen.exists_error_iff (h : OkWhen p a x) : (∃ fault, x = .error fault) ↔ ¬p := by
  cases h with
  | ok h => simp [h]
  | refused h => simp [h]

theorem OkWhen.kind_of_error (h : OkWhen p a x) {fault : Fault} (hx : x = .error fault) :
    fault.kind = .configuration := by
  cases h with
  | ok => cases hx
  | refused _ kind =>
    cases hx
    exact kind

end OkWhen

/-! ## Agreement -/

/-- Both succeed with related results, or both fail for a fault of the same kind. -/
def Agree (R : α → β → Prop) : Except Fault α → Except Fault β → Prop
  | .ok a, .ok b => R a b
  | .error fault, .error other => fault.kind = other.kind
  | _, _ => False

variable {R : α → β → Prop} {S : γ → δ → Prop}

theorem Agree.ok_or_error {x : Except Fault α} {y : Except Fault β} (h : Agree R x y) :
    (∃ a b, x = .ok a ∧ y = .ok b ∧ R a b) ∨
      ∃ fault other, x = .error fault ∧ y = .error other ∧ fault.kind = other.kind := by
  cases x with
  | ok a =>
    cases y with
    | ok b => exact .inl ⟨a, b, rfl, rfl, h⟩
    | error => exact h.elim
  | error fault =>
    cases y with
    | ok => exact h.elim
    | error other => exact .inr ⟨fault, other, rfl, rfl, h⟩

theorem Agree.eq_ok {x y : Except Fault α} (h : Agree Eq x y) {a : α} (hx : x = .ok a) :
    y = .ok a := by
  subst hx
  obtain ⟨b, c, hb, hc, rfl⟩ | ⟨_, _, he, _⟩ := h.ok_or_error
  · cases hb
    exact hc
  · cases he

theorem Agree.refl {R : α → α → Prop} (hR : ∀ a, R a a) (x : Except Fault α) : Agree R x x := by
  cases x with
  | error fault => exact rfl
  | ok a => exact hR a

/-- One step on both sides. -/
theorem Agree.bind_same {x : Except Fault α} {f : α → Except Fault γ} {g : α → Except Fault δ}
    (hfg : ∀ a, Agree S (f a) (g a)) : Agree S (x >>= f) (x >>= g) := by
  cases x with
  | error fault => exact rfl
  | ok a => exact hfg a

theorem Agree.map_same {x : Except Fault α} {f : α → γ} {g : α → δ} (hfg : ∀ a, S (f a) (g a)) :
    Agree S (f <$> x) (g <$> x) := by
  cases x with
  | error fault => exact rfl
  | ok a => exact hfg a

theorem Agree.mono {R' : α → β → Prop} (hR : ∀ a b, R a b → R' a b) {x : Except Fault α}
    {y : Except Fault β} (h : Agree R x y) : Agree R' x y := by
  obtain ⟨a, b, rfl, rfl, hab⟩ | ⟨_, _, rfl, rfl, hkind⟩ := h.ok_or_error
  · exact hR a b hab
  · exact hkind

theorem Agree.bind_of_ok {x : Except Fault α} {y : Except Fault β} {f : α → Except Fault γ}
    {g : β → Except Fault δ} (h : Agree R x y)
    (hfg : ∀ a b, x = .ok a → R a b → Agree S (f a) (g b)) : Agree S (x >>= f) (y >>= g) := by
  obtain ⟨a, b, rfl, rfl, hab⟩ | ⟨_, _, rfl, rfl, hkind⟩ := h.ok_or_error
  · exact hfg a b rfl hab
  · exact hkind

theorem Agree.bind {x : Except Fault α} {y : Except Fault β} {f : α → Except Fault γ}
    {g : β → Except Fault δ} (h : Agree R x y) (hfg : ∀ a b, R a b → Agree S (f a) (g b)) :
    Agree S (x >>= f) (y >>= g) :=
  h.bind_of_ok fun a b _ => hfg a b

theorem Agree.map {x : Except Fault α} {y : Except Fault β} {f : α → γ} {g : β → δ}
    (h : Agree R x y) (hfg : ∀ a b, R a b → S (f a) (g b)) : Agree S (f <$> x) (g <$> y) := by
  obtain ⟨a, b, rfl, rfl, hab⟩ | ⟨_, _, rfl, rfl, hkind⟩ := h.ok_or_error
  · exact hfg a b hab
  · exact hkind

theorem Agree.mapM_same (xs : List α) {f : α → Except Fault γ} {g : α → Except Fault δ}
    (hfg : ∀ a, Agree S (f a) (g a)) : Agree (List.Forall₂ S) (xs.mapM f) (xs.mapM g) := by
  induction xs with
  | nil => exact List.Forall₂.nil
  | cons a xs ih =>
    rw [List.mapM_cons, List.mapM_cons]
    apply (hfg a).bind
    intro c d hcd
    apply ih.bind
    intro cs ds hrest
    exact List.Forall₂.cons hcd hrest

/-! ## The same in another order -/

/-- The lists have the same members, in whatever order. -/
def SameMembers (xs ys : List α) : Prop :=
  ∀ x, x ∈ xs ↔ x ∈ ys

section SameMembers

variable {xs ys : List α}

theorem SameMembers.symm (h : SameMembers xs ys) : SameMembers ys xs :=
  fun x => (h x).symm

theorem SameMembers.map (h : SameMembers xs ys) (f : α → β) :
    SameMembers (xs.map f) (ys.map f) := by
  intro b
  simp only [List.mem_map, h _]

theorem SameMembers.filterMap (h : SameMembers xs ys) (f : α → Option β) :
    SameMembers (xs.filterMap f) (ys.filterMap f) := by
  intro b
  simp only [List.mem_filterMap, h _]

theorem SameMembers.isEmpty_eq (h : SameMembers xs ys) : xs.isEmpty = ys.isEmpty := by
  rw [Bool.eq_iff_iff, List.isEmpty_iff, List.isEmpty_iff]
  simp only [List.eq_nil_iff_forall_not_mem, h _]

/-- Lists with the same results have the same among them if all succeed, or fail alike when there is
but one kind of fault to fail for. -/
theorem Agree.mapM_of_sameResults {f : α → Except Fault β} {kind : Fault.Kind}
    (hsame : SameMembers (xs.map f) (ys.map f))
    (hkind : ∀ x fault, f x = .error fault → fault.kind = kind) :
    Agree SameMembers (xs.mapM f) (ys.mapM f) := by
  have hresult (result : Except Fault β) :
      (∃ x ∈ xs, f x = result) ↔ ∃ y ∈ ys, f y = result := by
    simpa only [List.mem_map] using hsame result
  cases hxs : xs.mapM f with
  | ok as =>
    cases hys : ys.mapM f with
    | ok bs =>
      intro b
      simp only [mem_of_mapM hxs, mem_of_mapM hys, hresult]
    | error fault =>
      obtain ⟨x, hx, hfault⟩ := (hresult _).2 (exists_of_mapM_error hys)
      obtain ⟨b, hb⟩ := exists_of_mapM hxs hx
      cases hb.symm.trans hfault
  | error fault =>
    obtain ⟨x, hx, hfault⟩ := exists_of_mapM_error hxs
    cases hys : ys.mapM f with
    | ok bs =>
      obtain ⟨y, hy, hother⟩ := (hresult _).1 ⟨x, hx, hfault⟩
      obtain ⟨b, hb⟩ := exists_of_mapM hys hy
      cases hb.symm.trans hother
    | error other =>
      obtain ⟨y, _, hother⟩ := exists_of_mapM_error hys
      exact (hkind x fault hfault).trans (hkind y other hother).symm

theorem Agree.mapM_of_sameMembers {f : α → Except Fault β} {kind : Fault.Kind}
    (hsame : SameMembers xs ys) (hkind : ∀ x fault, f x = .error fault → fault.kind = kind) :
    Agree SameMembers (xs.mapM f) (ys.mapM f) :=
  mapM_of_sameResults (hsame.map f) hkind

end SameMembers

end Sharding.Outcome
