import Sharding.Proofs.Algorithm.Expression
import Sharding.Proofs.Row
import Sharding.Proofs.Strategy.Resolve
/-!
# Lists stand for their values

A list of values is a choice: what a strategy picks for a query are the names that it picks where
one value is kept of each list, and it fails exactly where it fails for one of these.
-/

namespace Sharding

namespace Predicate

/-- One of the values is kept. -/
inductive KeepsOne : Predicate → Predicate → Prop where
  | list {table column : String} {values : List Value} {v : Value} (h : v ∈ values) :
    KeepsOne (.list table column values) (.list table column [v])
  | hint {table : String} {values : List Value} {v : Value} (h : v ∈ values) :
    KeepsOne (.hint table values) (.hint table [v])

theorem KeepsOne.table_eq {p c : Predicate} (h : p.KeepsOne c) : c.table = p.table := by
  cases h <;> rfl

theorem KeepsOne.column_eq {p c : Predicate} (h : p.KeepsOne c) : c.column = p.column := by
  cases h <;> rfl

/-- The predicate lists values of a column, at least one. -/
def IsList (p : Predicate) : Prop :=
  ∃ table column values, p = .list table column values ∧ values ≠ []

theorem IsList.exists_keepsOne {p : Predicate} (h : p.IsList) : ∃ c, p.KeepsOne c := by
  obtain ⟨table, column, values, rfl, hne⟩ := h
  obtain ⟨v, rest, rfl⟩ := List.exists_cons_of_ne_nil hne
  exact ⟨_, .list List.mem_cons_self⟩

end Predicate

/-- The choice has one value of each predicate. -/
abbrev Chooses (query choice : List Predicate) : Prop :=
  List.Forall₂ Predicate.KeepsOne query choice

theorem chooses_singleton {p : Predicate} {choice : List Predicate} :
    Chooses [p] choice ↔ ∃ c, p.KeepsOne c ∧ choice = [c] := by
  constructor
  · rintro (_ | ⟨hc, _ | _⟩)
    exact ⟨_, hc, rfl⟩
  · rintro ⟨c, hc, rfl⟩
    exact .cons hc .nil

/-- Lists of values of some of the columns, at most one list for each column. -/
structure EachOnce (columns : List String) (query : List Predicate) : Prop where
  lists : ∀ p ∈ query, p.IsList
  about : ∀ p ∈ query, Name.isIn columns p.column
  once : (query.map fun p => Name.fold p.column).Nodup

theorem Chooses.exists_of_mem {query choice : List Predicate} (h : Chooses query choice)
    {c : Predicate} (hc : c ∈ choice) : ∃ p ∈ query, p.KeepsOne c :=
  Outcome.exists_mem_of_forall₂ h.flip hc

theorem Chooses.exists_mem {query choice : List Predicate} (h : Chooses query choice)
    {p : Predicate} (hp : p ∈ query) : ∃ c ∈ choice, p.KeepsOne c :=
  Outcome.exists_mem_of_forall₂ h hp

theorem Chooses.map_column {query choice : List Predicate} (h : Chooses query choice) :
    choice.map (fun c => Name.fold c.column) = query.map fun p => Name.fold p.column := by
  induction h with
  | nil => rfl
  | cons hkept _ ih => rw [List.map_cons, List.map_cons, hkept.column_eq, ih]

theorem EachOnce.eq_of_fold_eq {columns : List String} {query : List Predicate}
    (h : EachOnce columns query) {p q : Predicate} (hp : p ∈ query) (hq : q ∈ query)
    (hfold : Name.fold p.column = Name.fold q.column) : p = q :=
  List.inj_on_of_nodup_map h.once hp hq hfold

theorem exists_chooses {query : List Predicate} (h : ∀ p ∈ query, ∃ c, p.KeepsOne c) :
    ∃ choice, Chooses query choice := by
  induction query with
  | nil => exact ⟨[], .nil⟩
  | cons p query ih =>
    obtain ⟨⟨c, hc⟩, hrest⟩ := List.forall_mem_cons.1 h
    obtain ⟨choice, hchoice⟩ := ih hrest
    exact ⟨c :: choice, .cons hc hchoice⟩

theorem EachOnce.exists_choice {columns : List String} {query : List Predicate}
    (h : EachOnce columns query) : ∃ choice, Chooses query choice :=
  exists_chooses fun p hp => (h.lists p hp).exists_keepsOne

theorem EachOnce.choice {columns : List String} {query choice : List Predicate}
    (h : EachOnce columns query) (hchoice : Chooses query choice) : EachOnce columns choice := by
  refine ⟨?_, ?_, hchoice.map_column ▸ h.once⟩
  · intro c hc
    obtain ⟨p, hp, hkept⟩ := hchoice.exists_of_mem hc
    obtain ⟨table, column, values, rfl, -⟩ := h.lists p hp
    cases hkept with
    | list hv => exact ⟨_, _, _, rfl, List.cons_ne_nil _ _⟩
  · intro c hc
    obtain ⟨p, hp, hkept⟩ := hchoice.exists_of_mem hc
    rw [hkept.column_eq]
    exact h.about p hp

/-- A run succeeds for a query exactly if it does for every choice, and the names of its result are
those of the results for the choices. -/
structure Decomposes {β : Type} (run : List Predicate → Except Fault β) (Has : β → String → Prop)
    (query : List Predicate) : Prop where
  exists_ok_iff : (∃ b, run query = .ok b) ↔
    ∀ choice, Chooses query choice → ∃ b, run choice = .ok b
  has_iff : ∀ {b}, run query = .ok b → ∀ name, Has b name ↔
    ∃ choice c, Chooses query choice ∧ run choice = .ok c ∧ Has c name

theorem Decomposes.of_eq {β : Type} {run : List Predicate → Except Fault β}
    {Has : β → String → Prop} {query : List Predicate} (hexists : ∃ choice, Chooses query choice)
    (heq : ∀ choice, Chooses query choice → run choice = run query) :
    Decomposes run Has query := by
  obtain ⟨some, hsome⟩ := hexists
  constructor
  · constructor
    · rintro h choice hchoice
      rwa [heq choice hchoice]
    · intro h
      rw [← heq some hsome]
      exact h some hsome
  · intro b hb name
    constructor
    · intro hname
      exact ⟨some, b, hsome, (heq some hsome).trans hb, hname⟩
    · rintro ⟨choice, c, hchoice, hc, hname⟩
      rw [heq choice hchoice, hb] at hc
      cases hc
      exact hname

namespace Strategy

open Outcome Algorithm

/-- The outcome has a target for each of `xs` at most, all of which must succeed. -/
structure Collects {α : Type} (f : α → Except Fault (Option String)) (xs : List α)
    (outcome : Except Fault (Option (List String))) : Prop where
  exists_ok_iff : (∃ found, outcome = .ok found) ↔ ∀ x ∈ xs, ∃ target, f x = .ok target
  picks_iff : ∀ {found}, outcome = .ok found → ∀ name, Picks found name ↔
    ∃ x ∈ xs, ∃ target, f x = .ok (some target) ∧ Name.fold target = Name.fold name

/-- What collects over all values decomposes when each choice collects over one of them, and each of
them is that of a choice. -/
theorem Collects.decomposes {α : Type} {f : α → Except Fault (Option String)} {xs : List α}
    {run : List Predicate → Except Fault (Option (List String))} {query : List Predicate}
    (hquery : Collects f xs (run query))
    (hchoices : ∀ choice, Chooses query choice → ∃ x ∈ xs, Collects f [x] (run choice))
    (hvalues : ∀ x ∈ xs, ∃ choice, Chooses query choice ∧ Collects f [x] (run choice)) :
    Decomposes run Picks query := by
  constructor
  · rw [hquery.exists_ok_iff]
    constructor
    · intro h choice hchoice
      obtain ⟨x, hx, hcollects⟩ := hchoices choice hchoice
      exact hcollects.exists_ok_iff.2 (List.forall_mem_singleton.2 (h x hx))
    · intro h x hx
      obtain ⟨choice, hchoice, hcollects⟩ := hvalues x hx
      exact hcollects.exists_ok_iff.1 (h choice hchoice) x (List.mem_singleton_self x)
  · intro found hfound name
    rw [hquery.picks_iff hfound]
    constructor
    · rintro ⟨x, hx, target, htarget, hfold⟩
      obtain ⟨choice, hchoice, hcollects⟩ := hvalues x hx
      obtain ⟨one, hone⟩ := hcollects.exists_ok_iff.2 (List.forall_mem_singleton.2 ⟨_, htarget⟩)
      have hpicks := (hcollects.picks_iff hone name).2
        ⟨x, List.mem_singleton_self x, target, htarget, hfold⟩
      exact ⟨choice, one, hchoice, hone, hpicks⟩
    · rintro ⟨choice, one, hchoice, hone, hpicks⟩
      obtain ⟨x, hx, hcollects⟩ := hchoices choice hchoice
      obtain ⟨y, hy, target, htarget, hfold⟩ := (hcollects.picks_iff hone name).1 hpicks
      cases List.mem_singleton.1 hy
      exact ⟨x, hx, target, htarget, hfold⟩

theorem Collects.of_map {α γ : Type} {f : α → Except Fault (Option String)} {g : γ → α}
    {xs : List γ} {outcome : Except Fault (Option (List String))} (h : Collects f (xs.map g) outcome) :
    Collects (fun x => f (g x)) xs outcome := by
  constructor
  · rw [h.exists_ok_iff, List.forall_mem_map]
  · intro found hfound name
    rw [h.picks_iff hfound]
    simp only [List.mem_map, exists_exists_and_eq_and]

theorem collects_standardTargets (column : String) (algorithm : Algorithm.Standard)
    (available : List String) (table other : String) (values : List Value) :
    Collects (fun v => algorithm.precise available ⟨table, column, v⟩) values
      (some <$> standardTargets column algorithm available (.list table other values)) := by
  constructor
  · rw [exists_map_iff, ← exists_mapM_iff]
    exact exists_bind_iff
  · intro found hfound name
    obtain ⟨names, hnames, rfl⟩ := map_eq_ok.1 hfound
    rw [picks_some, isIn_standardTargets_list hnames]

theorem collects_namedTargets (available : List String) (expression : String)
    (bindings : List Inline.Bindings) :
    Collects (namedTarget available expression) bindings
      (some <$> namedTargets available expression bindings) := by
  constructor
  · rw [exists_map_iff, ← exists_mapM_iff]
    exact exists_bind_iff
  · intro found hfound name
    obtain ⟨names, hnames, rfl⟩ := map_eq_ok.1 hfound
    rw [picks_some, isIn_namedTargets hnames]

/-! ## One column, hints -/

theorem standard_decomposes (column : String) (algorithm : Algorithm.Standard)
    (available : List String) {query : List Predicate} (hquery : EachOnce [column] query) :
    Decomposes ((standard column algorithm).targets? available) Picks query := by
  match query with
  | [] =>
    apply Decomposes.of_eq ⟨[], .nil⟩
    rintro _ ⟨⟩
    rfl
  | p :: q :: rest =>
    have hp := Name.isIn_singleton.1 (hquery.about p List.mem_cons_self)
    have hq := Name.isIn_singleton.1 (hquery.about q (List.mem_cons_of_mem p List.mem_cons_self))
    have hne := (List.pairwise_cons.1 hquery.once).1 (Name.fold q.column) List.mem_cons_self
    exact absurd (hp.symm.trans hq) hne
  | [p] =>
    obtain ⟨table, own, values, rfl, -⟩ := hquery.lists p List.mem_cons_self
    have hown : Name.same own column :=
      Name.same_iff.2 (Name.isIn_singleton.1 (hquery.about _ List.mem_cons_self)).symm
    have hcollects (kept : List Value) :
        Collects (fun v => algorithm.precise available ⟨table, column, v⟩) kept
          ((standard column algorithm).targets? available [.list table own kept]) := by
      have hfind : [Predicate.list table own kept].find? (·.isAbout column) =
          some (.list table own kept) :=
        List.find?_cons_of_pos (Predicate.isAbout_iff.2 ⟨rfl, hown⟩)
      rw [targets?_standard algorithm available hfind]
      exact collects_standardTargets column algorithm available table own kept
    apply (hcollects values).decomposes
    · intro choice hchoice
      obtain ⟨_, hkept, rfl⟩ := chooses_singleton.1 hchoice
      cases hkept with
      | list hv => exact ⟨_, hv, hcollects _⟩
    · intro v hv
      exact ⟨_, chooses_singleton.2 ⟨_, .list hv, rfl⟩, hcollects [v]⟩

theorem hint_decomposes (props : Properties) (available : List String) {query : List Predicate}
    (hquery : query = [] ∨ ∃ table values, query = [.hint table values] ∧ values ≠ []) :
    Decomposes ((hint (hintInline props)).targets? available) Picks query := by
  rcases hquery with rfl | ⟨table, values, rfl, hne⟩
  · apply Decomposes.of_eq ⟨[], .nil⟩
    rintro _ ⟨⟩
    rfl
  · have hcollects (kept : List Value) (hkept : kept ≠ []) :
        Collects (fun v : Value => namedTarget available
            ((props.text? "algorithm-expression").getD "$\x7bvalue\x7d") [("value", v.datum)]) kept
          ((hint (hintInline props)).targets? available [.hint table kept]) := by
      have htargets : (hint (hintInline props)).targets? available [.hint table kept] =
          some <$> (hintInline props).targets available ⟨table, "", kept⟩ := by
        rw [targets?, gatherHints, List.foldl_cons, List.foldl_nil, gatherHint, List.nil_append,
          if_neg (by simpa using hkept)]
      rw [htargets]
      exact (collects_namedTargets available _ _).of_map
    apply (hcollects values hne).decomposes
    · intro choice hchoice
      obtain ⟨_, hkept, rfl⟩ := chooses_singleton.1 hchoice
      cases hkept with
      | hint hv => exact ⟨_, hv, hcollects _ (List.cons_ne_nil _ _)⟩
    · intro v hv
      exact ⟨_, chooses_singleton.2 ⟨_, .hint hv, rfl⟩, hcollects [v] (List.cons_ne_nil _ _)⟩

/-! ## Several columns -/

section Complex

variable {columns : List String} {query choice : List Predicate}

theorem exists_find?_of_isIn {column : String} (h : Name.isIn columns column) :
    ∃ k, columns.find? (Name.same column ·) = some k := by
  obtain ⟨own, hown, hfold⟩ := Name.isIn_iff.1 h
  apply Option.isSome_iff_exists.1
  exact List.find?_isSome.2 ⟨own, hown, Name.same_iff.2 hfold.symm⟩

/-- The values of a column that are gathered are those of its list. -/
theorem mem_entries_gatherColumns (h : EachOnce columns query) {k : String} {values : List Value} :
    (k, values) ∈ (gatherColumns columns query).values.entries ↔
      ∃ table column, .list table column values ∈ query ∧
        columns.find? (Name.same column ·) = some k := by
  rw [← Dictionary.get?_eq_some_iff]
  constructor
  · exact get?_values_gatherColumns
  · rintro ⟨table, column, hmem, hfind⟩
    obtain ⟨gathered, hgathered⟩ := exists_values_gatherColumns hmem hfind
    obtain ⟨other, own, hother, hown⟩ := get?_values_gatherColumns hgathered
    have hfold : Name.fold column = Name.fold own :=
      (Name.same_iff.1 (List.find?_some hfind)).trans (Name.same_iff.1 (List.find?_some hown)).symm
    cases h.eq_of_fold_eq hmem hother hfold
    exact hgathered

theorem mem_keys_gatherColumns (h : EachOnce columns query) {k : String} :
    k ∈ (gatherColumns columns query).values.keys ↔
      ∃ p ∈ query, columns.find? (Name.same p.column ·) = some k := by
  constructor
  · intro hk
    obtain ⟨⟨_, values⟩, hentry, rfl⟩ := List.mem_map.1 hk
    obtain ⟨table, column, hmem, hfind⟩ := (mem_entries_gatherColumns h).1 hentry
    exact ⟨_, hmem, hfind⟩
  · rintro ⟨p, hp, hfind⟩
    obtain ⟨table, column, values, rfl, -⟩ := h.lists p hp
    exact List.mem_map.2 ⟨(k, values), (mem_entries_gatherColumns h).2 ⟨_, _, hp, hfind⟩, rfl⟩

/-- Every choice has values of the same columns. -/
theorem keys_gatherColumns (h : EachOnce columns query) (hchoice : Chooses query choice) :
    (gatherColumns columns choice).values.keys = (gatherColumns columns query).values.keys := by
  apply Dictionary.keys_eq
  intro k
  rw [mem_keys_gatherColumns h, mem_keys_gatherColumns (h.choice hchoice)]
  constructor
  · rintro ⟨c, hc, hfind⟩
    obtain ⟨p, hp, hkept⟩ := hchoice.exists_of_mem hc
    exact ⟨p, hp, hkept.column_eq ▸ hfind⟩
  · rintro ⟨p, hp, hfind⟩
    obtain ⟨c, hc, hkept⟩ := hchoice.exists_mem hp
    exact ⟨c, hc, hkept.column_eq ▸ hfind⟩

/-- The value of a key that has one. -/
def single (values : Dictionary (List Value)) (k : String) : Value :=
  match values.get? k with
  | some (v :: _) => v
  | _ => .int 0

theorem single_eq {values : Dictionary (List Value)} {k : String} {v : Value}
    (h : (k, [v]) ∈ values.entries) : single values k = v := by
  rw [single, Dictionary.get?_eq_some_iff.2 h]

/-- A choice has one combination, which is one of those of the query. -/
theorem exists_combination_of_choice (h : EachOnce columns query)
    (hchoice : Chooses query choice) :
    ∃ each ∈ combinations (gatherColumns columns query).values.entries,
      combinations (gatherColumns columns choice).values.entries = [each] := by
  have hchosen := h.choice hchoice
  have hsingle : ∀ entry ∈ (gatherColumns columns choice).values.entries,
      entry.2 = [single (gatherColumns columns choice).values entry.1] := by
    rintro ⟨k, values⟩ hentry
    obtain ⟨table, column, hc, _⟩ := (mem_entries_gatherColumns hchosen).1 hentry
    obtain ⟨p, _, hkept⟩ := hchoice.exists_of_mem hc
    cases hkept with
    | list hv => rw [single_eq hentry]
  have hvalue : ∀ entry ∈ (gatherColumns columns query).values.entries,
      single (gatherColumns columns choice).values entry.1 ∈ entry.2 := by
    rintro ⟨k, values⟩ hentry
    obtain ⟨table, column, hp, hfind⟩ := (mem_entries_gatherColumns h).1 hentry
    obtain ⟨c, hc, hkept⟩ := hchoice.exists_mem hp
    cases hkept with
    | list hv =>
      rw [single_eq ((mem_entries_gatherColumns hchosen).2 ⟨table, column, hc, hfind⟩)]
      exact hv
  refine ⟨_, bindColumns_mem_combinations hvalue, ?_⟩
  have hkeys := keys_gatherColumns h hchoice
  rw [Dictionary.keys, Dictionary.keys] at hkeys
  rw [combinations_of_single hsingle, hkeys]

/-- The list with the value that is given for the first spelling of its column. -/
def keepValue (columns : List String) (value : String → Value) : Predicate → Predicate
  | .list table column _ =>
    .list table column [value ((columns.find? (Name.same column ·)).getD column)]
  | p => p

/-- Each combination of the query is that of a choice. -/
theorem exists_choice_of_combination (h : EachOnce columns query) {each : Inline.Bindings}
    (heach : each ∈ combinations (gatherColumns columns query).values.entries) :
    ∃ choice, Chooses query choice ∧
      combinations (gatherColumns columns choice).values.entries = [each] := by
  obtain ⟨value, rfl, hvalue⟩ := exists_of_mem_combinations (Dictionary.keys_nodup _) heach
  have hchoice : Chooses query (query.map (keepValue columns value)) := by
    refine List.forall₂_map_right_iff.2 (List.forall₂_same.2 fun p hp => ?_)
    obtain ⟨table, column, values, rfl, -⟩ := h.lists p hp
    obtain ⟨k, hfind⟩ : ∃ k, columns.find? (Name.same column ·) = some k :=
      exists_find?_of_isIn (h.about _ hp)
    have hentry := (mem_entries_gatherColumns h).2 ⟨table, column, hp, hfind⟩
    rw [keepValue, hfind]
    exact .list (hvalue _ hentry)
  have hsingle : ∀ entry ∈
      (gatherColumns columns (query.map (keepValue columns value))).values.entries,
      entry.2 = [value entry.1] := by
    rintro ⟨k, values⟩ hentry
    obtain ⟨table, column, hc, hfind⟩ := (mem_entries_gatherColumns (h.choice hchoice)).1 hentry
    obtain ⟨p, hp, hkept⟩ := List.mem_map.1 hc
    obtain ⟨_, own, _, rfl, -⟩ := h.lists p hp
    cases hkept
    rw [hfind]
    rfl
  refine ⟨_, hchoice, ?_⟩
  have hkeys := keys_gatherColumns h hchoice
  rw [Dictionary.keys, Dictionary.keys] at hkeys
  rw [combinations_of_single hsingle, hkeys]

/-- The targets of the expression under all combinations of the values, if there are values and as
many columns of them as are asked for. -/
def combinedTargets (props : Properties) (available : List String)
    (values : Dictionary (List Value)) : Except Fault (Option (List String)) :=
  let needed := Text.fields ((props.get? "sharding-columns").getD "")
  if values.keys = [] then .ok Option.none
  else if needed ≠ [] ∧ needed.length ≠ values.keys.length then
    .error (.value (.columnCount "COMPLEX_INLINE" needed.length values.keys.length))
  else do
    let expression ← props.text "COMPLEX_INLINE" "algorithm-expression"
    some <$> namedTargets available expression (combinations values.entries)

theorem targets?_complex_of_eachOnce (h : EachOnce columns query) (props : Properties)
    (available : List String) :
    (complex columns (complexInline props)).targets? available query =
      combinedTargets props available (gatherColumns columns query).values := by
  have hranges : (gatherColumns columns query).ranges.isEmpty = true := by
    apply Dictionary.isEmpty_iff.2
    apply ranges_gatherColumns_of_lists
    intro p hp
    obtain ⟨table, column, values, hp, -⟩ := h.lists p hp
    exact ⟨table, column, values, hp⟩
  have hkeys (values : Dictionary (List Value)) : values.isEmpty = true ↔ values.keys = [] := by
    rw [Dictionary.isEmpty, List.isEmpty_iff, Dictionary.keys, List.map_eq_nil_iff]
  have hsize (values : Dictionary (List Value)) : values.size = values.keys.length :=
    (List.length_map _).symm
  simp only [targets?, hranges, Bool.and_true, hkeys, complexInline, Bool.not_true,
    Bool.false_eq_true, if_false, hsize, combinedTargets]
  split_ifs
  · rfl
  · rfl
  · cases props.text "COMPLEX_INLINE" "algorithm-expression" <;> rfl

/-- Values of the same columns have the same outcome or the same expression to go by. -/
theorem combinedTargets_of_keys (props : Properties) (available keys : List String) :
    (∃ outcome, ∀ values, values.keys = keys → combinedTargets props available values = outcome) ∨
      ∃ expression, ∀ values, values.keys = keys → combinedTargets props available values =
        some <$> namedTargets available expression (combinations values.entries) := by
  let needed := Text.fields ((props.get? "sharding-columns").getD "")
  by_cases hempty : keys = []
  · left
    refine ⟨.ok Option.none, ?_⟩
    rintro values rfl
    exact if_pos hempty
  by_cases hcount : needed ≠ [] ∧ needed.length ≠ keys.length
  · left
    refine ⟨.error (.value (.columnCount "COMPLEX_INLINE" needed.length keys.length)), ?_⟩
    rintro values rfl
    exact (if_neg hempty).trans (if_pos hcount)
  cases htext : props.text "COMPLEX_INLINE" "algorithm-expression" with
  | error fault =>
    left
    refine ⟨.error fault, ?_⟩
    rintro values rfl
    rw [combinedTargets, if_neg hempty, if_neg hcount, htext]
    rfl
  | ok expression =>
    right
    refine ⟨expression, ?_⟩
    rintro values rfl
    rw [combinedTargets, if_neg hempty, if_neg hcount, htext]
    rfl

theorem complex_decomposes (props : Properties) (available : List String)
    (hquery : EachOnce columns query) :
    Decomposes ((complex columns (complexInline props)).targets? available) Picks query := by
  have htargets := targets?_complex_of_eachOnce hquery props available
  have hchosen (choice : List Predicate) (hchoice : Chooses query choice) :=
    targets?_complex_of_eachOnce (hquery.choice hchoice) props available
  have hkeys (choice : List Predicate) (hchoice : Chooses query choice) :=
    keys_gatherColumns hquery hchoice
  rcases combinedTargets_of_keys props available (gatherColumns columns query).values.keys with
    ⟨outcome, hsame⟩ | ⟨expression, hnamed⟩
  · apply Decomposes.of_eq hquery.exists_choice
    intro choice hchoice
    rw [htargets, hchosen choice hchoice, hsame _ rfl, hsame _ (hkeys choice hchoice)]
  · have hcollects : Collects (namedTarget available expression)
        (combinations (gatherColumns columns query).values.entries)
        ((complex columns (complexInline props)).targets? available query) := by
      rw [htargets, hnamed _ rfl]
      exact collects_namedTargets available expression _
    have hcollectsOne : ∀ choice each, Chooses query choice →
        combinations (gatherColumns columns choice).values.entries = [each] →
        Collects (namedTarget available expression) [each]
          ((complex columns (complexInline props)).targets? available choice) := by
      intro choice each hchoice heach
      rw [hchosen choice hchoice, hnamed _ (hkeys choice hchoice), heach]
      exact collects_namedTargets available expression _
    apply hcollects.decomposes
    · intro choice hchoice
      obtain ⟨each, hmem, heach⟩ := exists_combination_of_choice hquery hchoice
      exact ⟨each, hmem, hcollectsOne choice each hchoice heach⟩
    · intro each hmem
      obtain ⟨choice, hchoice, heach⟩ := exists_choice_of_combination hquery hmem
      exact ⟨choice, hchoice, hcollectsOne choice each hchoice heach⟩

end Complex

/-! ## Any strategy -/

theorem BuiltIn.decomposes {strategy : Strategy} (hstrategy : strategy.BuiltIn)
    (hnoHint : strategy.isHint = false) (available : List String) {query : List Predicate}
    (hquery : EachOnce strategy.columns query) :
    Decomposes (strategy.targets? available) Picks query := by
  cases hstrategy with
  | standard column _ _ => exact standard_decomposes column _ available hquery
  | complex columns props => exact complex_decomposes props available hquery
  | hint props => cases hnoHint
  | none =>
    apply Decomposes.of_eq hquery.exists_choice
    intro choice _
    rfl

theorem BuiltIn.decomposes_of_hint {strategy : Strategy} (hstrategy : strategy.BuiltIn)
    (hhint : strategy.isHint) (available : List String) {query : List Predicate}
    (hquery : query = [] ∨ ∃ table values, query = [.hint table values] ∧ values ≠ []) :
    Decomposes (strategy.targets? available) Picks query := by
  cases hstrategy with
  | hint props => exact hint_decomposes props available hquery
  | _ => cases hhint

/-- What is left of the available names decomposes as the targets do. -/
theorem resolve_decomposes {strategy : Strategy} {available : List String} {query : List Predicate}
    (h : Decomposes (strategy.targets? available) Picks query) :
    Decomposes (strategy.resolve available) (fun names name => Name.isIn names name) query := by
  constructor
  · simp only [exists_resolve_iff]
    exact h.exists_ok_iff
  · intro names hnames name
    obtain ⟨found, hfound, hleft⟩ := resolve_eq_ok hnames
    rw [hleft]
    constructor
    · rintro ⟨havailable, hpicks⟩
      obtain ⟨choice, one, hchoice, hone, hpicks⟩ := (h.has_iff hfound name).1 hpicks
      obtain ⟨kept, hkept, hleft⟩ := resolve_of_ok hone
      exact ⟨choice, kept, hchoice, hkept, (hleft name).2 ⟨havailable, hpicks⟩⟩
    · rintro ⟨choice, kept, hchoice, hkept, hname⟩
      obtain ⟨one, hone, hleft⟩ := resolve_eq_ok hkept
      obtain ⟨havailable, hpicks⟩ := (hleft name).1 hname
      exact ⟨havailable, (h.has_iff hfound name).2 ⟨choice, one, hchoice, hone, hpicks⟩⟩

end Strategy

end Sharding
