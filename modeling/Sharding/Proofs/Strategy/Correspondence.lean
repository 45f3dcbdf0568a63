import Sharding.Proofs.Algorithm.Correspondence
import Sharding.Proofs.Strategy.Resolve
/-!
# Corresponding strategies

Strategies correspond when what they ask of corresponding names is answered alike. Said of two
tables in turn, the same predicates then leave corresponding names of both.
-/

namespace Sharding

open Outcome Name

namespace Predicate

/-- The predicate as it is said of another table. -/
def readdress (table : String) : Predicate → Predicate
  | list _ column values => list table column values
  | range _ column interval => range table column interval
  | hint _ values => hint table values

@[simp] theorem table_readdress (table : String) (p : Predicate) :
    (p.readdress table).table = table := by
  cases p <;> rfl

@[simp] theorem column_readdress (table : String) (p : Predicate) :
    (p.readdress table).column = p.column := by
  cases p <;> rfl

@[simp] theorem isAbout_readdress (column table : String) (p : Predicate) :
    (p.readdress table).isAbout column = p.isAbout column := by
  cases p <;> rfl

theorem isAbout_congr {column other : String} (h : Name.same column other) :
    isAbout column = isAbout other := by
  funext p
  simp only [isAbout, Name.same, Name.same_iff.1 h]

end Predicate

namespace Strategy

variable {R : String → String → Prop} {available others : List String} {s t : Strategy}

/-- On corresponding names the strategies have corresponding targets, or fail alike. -/
inductive Corresponds (R : String → String → Prop) : Strategy → Strategy → Prop where
  | standard {column other : String} {a b : Algorithm.Standard}
      (same : Name.same column other) (alike : a.Alike R column other b) :
      Corresponds R (.standard column a) (.standard other b)
  | complex (columns : List String) {a b : Algorithm.Complex}
      (alike : ∀ {available others}, List.Forall₂ R available others →
        ∀ {gathered same : Algorithm.Columns}, gathered.values = same.values →
          gathered.ranges = same.ranges →
          Agree (List.Forall₂ R) (a.targets available gathered) (b.targets others same)) :
      Corresponds R (.complex columns a) (.complex columns b)
  | none : Corresponds R .none .none

theorem Corresponds.noHint (h : Corresponds R s t) : s.isHint = false ∧ t.isHint = false := by
  cases h <;> exact ⟨rfl, rfl⟩

theorem Corresponds.isShardingColumn_eq (h : Corresponds R s t) (column : String) :
    s.isShardingColumn column = t.isShardingColumn column := by
  cases h with
  | standard same alike =>
    rw [Bool.eq_iff_iff]
    simp only [isShardingColumn, columns, isIn_singleton, Name.same_iff.1 same]
  | complex columns alike => rfl
  | none => rfl

theorem standardTargets_agree {column other : String} {a b : Algorithm.Standard}
    (halike : a.Alike R column other b) (h : List.Forall₂ R available others) (table : String)
    (p : Predicate) :
    Agree (List.Forall₂ R) (standardTargets column a available p)
      (standardTargets other b others (p.readdress table)) := by
  cases p with
  | list named own values =>
    have htargets := Agree.mapM_same values fun v => halike.precise h named table v
    apply htargets.bind
    intro targets same hsame
    exact List.rel_filterMap (fun _ _ h => h) hsame
  | range named own interval => exact halike.range h named table interval
  | hint named values => exact h

/-- What is gathered of the columns does not depend on the table that the predicates are about. -/
theorem gatherColumns_readdress (columns : List String) (table : String)
    (predicates : List Predicate) :
    (gatherColumns columns (predicates.map (·.readdress table))).values =
        (gatherColumns columns predicates).values ∧
      (gatherColumns columns (predicates.map (·.readdress table))).ranges =
        (gatherColumns columns predicates).ranges := by
  have hlisted : listed columns ∘ Predicate.readdress table = listed columns := by
    funext p
    cases p <;> rfl
  have hranged : ranged columns ∘ Predicate.readdress table = ranged columns := by
    funext p
    cases p <;> rfl
  obtain ⟨hvalues, hranges⟩ := gatherColumns_eq_ofList columns (predicates.map (·.readdress table))
  rw [hvalues, hranges, List.filterMap_map, List.filterMap_map, hlisted, hranged]
  obtain ⟨hvalues, hranges⟩ := gatherColumns_eq_ofList columns predicates
  exact ⟨hvalues.symm, hranges.symm⟩

theorem Corresponds.targets?_agree (hst : Corresponds R s t)
    (h : List.Forall₂ R available others) (table : String) (predicates : List Predicate) :
    Agree (Option.Rel (List.Forall₂ R)) (s.targets? available predicates)
      (t.targets? others (predicates.map (·.readdress table))) := by
  cases hst with
  | @standard column other a b same alike =>
    have hfind : (predicates.map (·.readdress table)).find? (·.isAbout other) =
        (predicates.find? (·.isAbout column)).map (·.readdress table) := by
      rw [List.find?_map, Predicate.isAbout_congr same]
      congr 2
      funext p
      exact Predicate.isAbout_readdress other table p
    cases hfound : predicates.find? (·.isAbout column) with
    | none =>
      rw [hfound] at hfind
      rw [targets?_standard_of_none a available hfound, targets?_standard_of_none b others hfind]
      exact .none
    | some p =>
      rw [hfound] at hfind
      rw [targets?_standard a available hfound, targets?_standard b others hfind]
      apply (standardTargets_agree alike h table p).map
      intro targets same hsame
      exact .some hsame
  | complex columns alike =>
    obtain ⟨hvalues, hranges⟩ := gatherColumns_readdress columns table predicates
    simp only [targets?, hvalues, hranges]
    split
    · exact .none
    · apply (alike h hvalues.symm hranges.symm).map
      intro targets same hsame
      exact .some hsame
  | none => exact .none

theorem Corresponds.resolve_agree (hst : Corresponds R s t) (hR : Faithful R)
    (h : List.Forall₂ R available others) (table : String) (predicates : List Predicate) :
    Agree (HeldAlike R) (s.resolve available predicates)
      (t.resolve others (predicates.map (·.readdress table))) := by
  rcases (hst.targets?_agree h table predicates).ok_or_error with
    ⟨found, same, hs, ht, hfound⟩ | ⟨fault, other, hs, ht, hkind⟩
  · obtain ⟨names, hnames, hleft⟩ := resolve_of_ok hs
    obtain ⟨left, hresolved, hright⟩ := resolve_of_ok ht
    rw [hnames, hresolved]
    intro a b hab
    rw [hleft, hright, hR.heldAlike h a b hab]
    apply and_congr_right'
    cases hfound with
    | none => simp
    | some htargets => rw [picks_some, picks_some, hR.heldAlike htargets a b hab]
  · rw [resolve_of_error hs, resolve_of_error ht]
    exact hkind

/-! ## Strategies that correspond -/

/-- The strategies are of one kind, on the same columns and by algorithms of one type with the same
properties. -/
inductive SameConfiguration : Strategy → Strategy → Prop where
  | standard (column : String) {a b : Algorithm.Standard} (type : a.type = b.type)
      (props : a.props = b.props) : SameConfiguration (.standard column a) (.standard column b)
  | complex (columns : List String) {a b : Algorithm.Complex} (type : a.type = b.type)
      (props : a.props = b.props) : SameConfiguration (.complex columns a) (.complex columns b)
  | hint {a b : Algorithm.Hint} (type : a.type = b.type) (props : a.props = b.props) :
      SameConfiguration (.hint a) (.hint b)
  | none : SameConfiguration .none .none

theorem SameConfiguration.eq (h : SameConfiguration s t) (hs : s.BuiltIn) (ht : t.BuiltIn) :
    s = t := by
  cases h with
  | standard column type props =>
    cases hs with
    | standard _ ha _ =>
      cases ht with
      | standard _ hb _ => rw [ha.eq_of_type_eq hb type props]
  | complex columns type props =>
    cases hs
    cases ht
    exact congrArg (fun props => Strategy.complex columns (Algorithm.complexInline props)) props
  | hint type props =>
    cases hs
    cases ht
    exact congrArg (fun props => Strategy.hint (Algorithm.hintInline props)) props
  | none => rfl

/-- Where the names are the same, so is what a strategy leaves of them. -/
theorem BuiltIn.corresponds_self (hs : s.BuiltIn) (hnoHint : s.isHint = false) :
    Corresponds (fun a b => fold a = fold b) s s := by
  cases hs with
  | standard column builtIn check =>
    exact .standard (Name.same_iff.2 rfl) (builtIn.alike_of_fold column)
  | complex columns props =>
    apply Corresponds.complex columns
    intro available others h gathered same hvalues hranges
    exact Algorithm.complexInline_agree props h hvalues hranges
  | hint props => cases hnoHint
  | none => exact .none

/-- Neither strategy narrows, or both place the numbers of one column in the same way. -/
inductive PlacesAlike : Strategy → Strategy → Prop where
  | standard {column other : String} {a b : Algorithm.Standard} (same : Name.same column other)
      (placing : a.type ∈ Algorithm.placingTypes) (type : a.type = b.type)
      (props : a.props = b.props) : PlacesAlike (.standard column a) (.standard other b)
  | none : PlacesAlike .none .none

theorem PlacesAlike.corresponds (h : PlacesAlike s t) (hs : s.BuiltIn) (ht : t.BuiltIn)
    (hR : Faithful R) : Corresponds R s t := by
  cases h with
  | @standard column other a b same placing type props =>
    cases hs with
    | standard _ ha _ =>
      cases ht with
      | standard _ hb _ =>
        cases ha.eq_of_type_eq hb type props
        exact .standard same (ha.alike_of_placing placing hR column other)
  | none => exact .none

end Strategy

end Sharding
