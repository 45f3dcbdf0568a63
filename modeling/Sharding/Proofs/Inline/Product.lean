import Sharding.Proofs.Inline.Scanning
import Sharding.Proofs.Numeral
/-!
# Templates as ordered products

Every segment of a template offers a list of alternatives. The names of the template are the ordered
product of these lists: the digits of a place, in the mixed radix of their sizes, choose the
alternatives that its name is made of. No expression stands for more names than the limit.
-/

namespace Sharding.Inline

open Outcome Text

variable {bindings : Bindings}

/-! ## Alternatives -/

namespace Datum

/-- The texts that data stand for from left to right: an integer for its decimal numeral, a text for
itself, and a list, opened where it is, for what its items stand for. -/
inductive StandFor : List Datum → List String → Prop where
  | nil : StandFor [] []
  | int {n : Int64} {s : String} {data : List Datum} {texts : List String}
    (hnumeral : Numeral.IsNumeral n.toInt s.toList) (h : StandFor data texts) :
    StandFor (.int n :: data) (s :: texts)
  | text {s : String} {data : List Datum} {texts : List String} (h : StandFor data texts) :
    StandFor (.text s :: data) (s :: texts)
  | list {items data : List Datum} {texts : List String} (h : StandFor (items ++ data) texts) :
    StandFor (.list items :: data) texts

theorem StandFor.flatMap_render {data : List Datum} {texts : List String}
    (h : StandFor data texts) : data.flatMap render = texts := by
  induction h with
  | nil => rfl
  | int hnumeral h ih =>
    rw [List.flatMap_cons, ih, render, Numeral.isNumeral_iff.1 hnumeral, List.singleton_append]
  | text h ih => rw [List.flatMap_cons, ih, render, List.singleton_append]
  | list h ih => rw [List.flatMap_cons, render, ← List.flatMap_append, ih]

/-- What stands for other data goes on after a datum in front of them. -/
theorem StandFor.cons {data : List Datum} {texts : List String} (h : StandFor data texts)
    (datum : Datum) : StandFor (datum :: data) (datum.render ++ texts) := by
  induction datum using render.induct generalizing data texts with
  | case1 n =>
    rw [render, List.singleton_append]
    exact .int (Numeral.isNumeral_iff.2 rfl) h
  | case2 s =>
    rw [render, List.singleton_append]
    exact .text h
  | case3 items ih =>
    rw [render]
    refine .list ?_
    -- the items of the list one after another, from the last one on
    induction items with
    | nil => exact h
    | cons first items ihItems =>
      have hitems := ihItems fun item hitem => ih item (List.mem_cons_of_mem _ hitem)
      rw [List.flatMap_cons, List.append_assoc]
      exact ih first List.mem_cons_self hitems

/-- A datum is rendered as what it stands for. -/
theorem standFor_iff {datum : Datum} {texts : List String} :
    StandFor [datum] texts ↔ datum.render = texts := by
  constructor
  · intro h
    simpa using h.flatMap_render
  · rintro rfl
    simpa using StandFor.nil.cons datum

end Datum

/-- A literal offers its text, a placeholder all that the value of its body stands for. -/
inductive Segment.Offers (bindings : Bindings) : Segment → List String → Prop where
  | literal (text : List Char) : Offers bindings (.literal text) [String.ofList text]
  | placeholder {body : List Char} {datum : Datum} {alternatives : List String}
    (value : evaluate body bindings = .ok datum) (h : Datum.StandFor [datum] alternatives) :
    Offers bindings (.placeholder body) alternatives

theorem Segment.alternatives_eq_ok_iff {segment : Segment} {alternatives : List String} :
    segment.alternatives bindings = .ok alternatives ↔ segment.Offers bindings alternatives := by
  constructor
  · intro h
    cases segment with
    | literal text =>
      cases h
      exact .literal text
    | placeholder body =>
      simp only [Segment.alternatives] at h
      split at h
      · next hvalue => exact .placeholder hvalue (Datum.standFor_iff.2 (Except.ok.inj h))
      · cases h
  · intro h
    cases h with
    | literal text => rfl
    | placeholder hvalue h => simp only [Segment.alternatives, hvalue, Datum.standFor_iff.1 h]

/-- The lists of alternatives that the segments of a template offer, from left to right. -/
def Offers (template : String) (bindings : Bindings) (lists : List (List String)) : Prop :=
  ∃ segments, Template.ReadAs (trim template).toList segments ∧
    List.Forall₂ (Segment.Offers bindings) segments lists

/-! ## Places in a product -/

/-- In how many ways one alternative of each list can be chosen. -/
def choices : List (List String) → Nat
  | [] => 1
  | alternatives :: lists => alternatives.length * choices lists

/-- The digits of a place in the mixed radix of the sizes of the lists, the first one most
significant. -/
def digits : List (List String) → Nat → List Nat
  | [], _ => []
  | alternatives :: lists, place =>
    place / choices lists % alternatives.length :: digits lists place

/-- The alternatives at the digits, joined. -/
def spell : List (List String) → List Nat → Option String
  | [], [] => some ""
  | alternatives :: lists, digit :: digits =>
    (alternatives[digit]?).bind fun first => (spell lists digits).map (first ++ ·)
  | _, _ => none

/-- There is one name for every choice, and the name at a place is spelled by its digits. -/
structure IsProduct (lists : List (List String)) (names : List String) : Prop where
  length_eq : names.length = choices lists
  getElem?_eq : ∀ place < choices lists, names[place]? = spell lists (digits lists place)

theorem choices_append (lists others : List (List String)) :
    choices (lists ++ others) = choices lists * choices others := by
  induction lists with
  | nil => exact (Nat.one_mul _).symm
  | cons alternatives lists ih => rw [List.cons_append, choices, ih, choices, Nat.mul_assoc]

theorem choices_eq_one_of_beginning {first lists : List (List String)} (h : first <+: lists)
    (hone : choices lists = 1) : choices first = 1 := by
  obtain ⟨rest, rfl⟩ := h
  rw [choices_append] at hone
  exact Nat.eq_one_of_mul_eq_one_right hone

theorem length_extend (names endings : List String) :
    (extend names endings).length = names.length * endings.length := by
  simp [extend]

/-- The endings vary fastest. -/
theorem getElem?_extend (names endings : List String) (place : Nat) :
    (extend names endings)[place]? =
      (names[place / endings.length]?).bind fun name =>
        (endings[place % endings.length]?).map (name ++ ·) := by
  induction names generalizing place with
  | nil => simp [extend]
  | cons first names ih =>
    have hextend : extend (first :: names) endings =
        endings.map (first ++ ·) ++ extend names endings := rfl
    rw [hextend]
    by_cases hlt : place < endings.length
    · rw [List.getElem?_append_left (by simpa using hlt), Nat.div_eq_of_lt hlt,
        Nat.mod_eq_of_lt hlt]
      simp
    · rw [List.getElem?_append_right (by simpa using hlt), List.length_map, ih]
      rcases Nat.eq_zero_or_pos endings.length with hnone | hpos
      · simp [List.length_eq_zero_iff.1 hnone]
      · have hle : endings.length ≤ place := Nat.le_of_not_lt hlt
        have hdiv : place / endings.length = (place - endings.length) / endings.length + 1 :=
          Nat.div_eq_sub_div hpos hle
        rw [hdiv, List.getElem?_cons_succ, Nat.mod_eq_sub_mod hle]

theorem length_foldl_extend (names : List String) (lists : List (List String)) :
    (lists.foldl extend names).length = names.length * choices lists := by
  induction lists generalizing names with
  | nil => exact (Nat.mul_one _).symm
  | cons endings lists ih =>
    rw [List.foldl_cons, ih, length_extend, choices, Nat.mul_assoc]

/-- What precedes a place by whole turns of the lists chooses the beginning of its name. -/
theorem getElem?_foldl_extend (names : List String) (lists : List (List String)) (place : Nat) :
    (lists.foldl extend names)[place]? =
      (names[place / choices lists]?).bind fun name =>
        (spell lists (digits lists place)).map (name ++ ·) := by
  induction lists generalizing names with
  | nil => simp [choices, digits, spell]
  | cons endings lists ih =>
    calc (lists.foldl extend (extend names endings))[place]?
        = ((names[place / choices lists / endings.length]?).bind fun name =>
            (endings[place / choices lists % endings.length]?).map (name ++ ·)).bind fun name =>
              (spell lists (digits lists place)).map (name ++ ·) := by
          rw [ih, getElem?_extend]
      _ = (names[place / choices (endings :: lists)]?).bind fun name =>
            (spell (endings :: lists) (digits (endings :: lists) place)).map (name ++ ·) := by
          rw [choices, Nat.div_div_eq_div_mul, Nat.mul_comm]
          simp [digits, spell, Option.bind_assoc, Option.map_bind, Option.bind_map,
            Function.comp_def, String.append_assoc]

theorem isProduct_iff {lists : List (List String)} {names : List String} :
    IsProduct lists names ↔ lists.foldl extend [""] = names := by
  have hlength : (lists.foldl extend [""]).length = choices lists := by
    rw [length_foldl_extend, List.length_singleton, Nat.one_mul]
  have hspelled : ∀ place < choices lists,
      (lists.foldl extend [""])[place]? = spell lists (digits lists place) := by
    intro place hlt
    rw [getElem?_foldl_extend, Nat.div_eq_of_lt hlt]
    simp
  constructor
  · intro h
    apply List.ext_getElem?
    intro place
    by_cases hlt : place < choices lists
    · rw [hspelled place hlt, h.getElem?_eq place hlt]
    · rw [List.getElem?_eq_none (by omega), List.getElem?_eq_none (by rw [h.length_eq]; omega)]
  · rintro rfl
    exact ⟨hlength, hspelled⟩

example : (List.range 4).map (fun place =>
    spell [["a", "b"], ["0", "1"]] (digits [["a", "b"], ["0", "1"]] place)) =
      [some "a0", some "a1", some "b0", some "b1"] := by decide

/-! ## Expansion -/

/-- What begins with some names is expanded exactly where the count stays within the limit after
every segment. -/
theorem expandFrom_eq_ok_iff {template : String} {names found : List String}
    {segments : List Segment} (hcount : names.length ≤ maxNames) :
    expandFrom template bindings names segments = .ok found ↔
      ∃ lists, List.Forall₂ (Segment.Offers bindings) segments lists ∧
        (∀ first, first <+: lists → names.length * choices first ≤ maxNames) ∧
        lists.foldl extend names = found := by
  induction segments generalizing names with
  | nil =>
    simp only [expandFrom, Except.ok.injEq, List.forall₂_nil_left_iff, exists_eq_left,
      List.prefix_nil, forall_eq, choices, Nat.mul_one, hcount, true_and, List.foldl_nil]
  | cons segment segments ih =>
    rw [expandFrom, bind_eq_ok]
    constructor
    · rintro ⟨endings, hendings, h⟩
      split at h
      · cases h
      · next hfew =>
        rw [Nat.not_lt, ← length_extend] at hfew
        obtain ⟨lists, hlists, hcapped, hfound⟩ := (ih hfew).1 h
        refine ⟨endings :: lists, .cons (Segment.alternatives_eq_ok_iff.1 hendings) hlists, ?_,
          hfound⟩
        intro first hfirst
        rcases List.prefix_cons_iff.1 hfirst with rfl | ⟨more, rfl, hmore⟩
        · rwa [choices, Nat.mul_one]
        · rw [choices, ← Nat.mul_assoc, ← length_extend]
          exact hcapped more hmore
    · rintro ⟨_, hlists, hcapped, hfound⟩
      obtain ⟨endings, lists, hendings, hmore, rfl⟩ := List.forall₂_cons_left_iff.1 hlists
      have hcapped' : ∀ first, first <+: lists →
          (extend names endings).length * choices first ≤ maxNames := by
        intro first hfirst
        rw [length_extend, Nat.mul_assoc]
        exact hcapped (endings :: first) (List.cons_prefix_cons.2 ⟨rfl, hfirst⟩)
      have hfew := hcapped' [] List.nil_prefix
      rw [choices, Nat.mul_one] at hfew
      refine ⟨endings, Segment.alternatives_eq_ok_iff.2 hendings, ?_⟩
      rw [if_neg (by rw [← length_extend]; omega)]
      exact (ih hfew).2 ⟨lists, hmore, hcapped', hfound⟩

theorem expand_eq_ok_iff {template : String} {names : List String} :
    expand template bindings = .ok names ↔
      ∃ lists, Offers template bindings lists ∧
        (∀ first, first <+: lists → choices first ≤ maxNames) ∧
        lists.foldl extend [""] = names := by
  unfold expand expandTrimmed Offers
  simp only [← Template.scan_eq_some_iff]
  cases Template.scan (trim template).toList with
  | none => simp
  | some segments =>
    have hone : [""].length ≤ maxNames := by decide
    simp [expandFrom_eq_ok_iff hone]

theorem Offers.unique {template : String} {lists others : List (List String)}
    (h : Offers template bindings lists) (h' : Offers template bindings others) :
    lists = others := by
  obtain ⟨segments, hread, hlists⟩ := h
  obtain ⟨_, hread', hothers⟩ := h'
  rw [← Template.scan_eq_some_iff] at hread hread'
  cases hread.symm.trans hread'
  refine List.right_unique_forall₂' ?_ hlists hothers
  intro segment a b ha hb
  rw [← Segment.alternatives_eq_ok_iff] at ha hb
  cases ha.symm.trans hb
  rfl

theorem expandOne_eq_ok_iff {template name : String} :
    expandOne template bindings = .ok name ↔ expand template bindings = .ok [name] := by
  unfold expandOne
  rw [bind_eq_ok]
  constructor
  · rintro ⟨names, hnames, h⟩
    split at h
    · cases h
      exact hnames
    · cases h
  · intro h
    exact ⟨[name], h, rfl⟩

theorem length_le_of_expandAllFrom {expression : String} {count : Nat} {templates : List String}
    {names : List String} (hcount : count ≤ maxNames)
    (h : expandAllFrom expression count templates = .ok names) :
    count + names.length ≤ maxNames := by
  induction templates generalizing count names with
  | nil =>
    cases h
    exact hcount
  | cons template templates ih =>
    obtain ⟨found, _, h⟩ := bind_eq_ok.1 h
    split at h
    · cases h
    · next hfew =>
      obtain ⟨more, hmore, h⟩ := bind_eq_ok.1 h
      cases h
      have := ih (Nat.le_of_not_lt hfew) hmore
      rw [List.length_append]
      omega

/-- A template expands exactly where it is read as segments, every body has a value and no beginning
of the product of their alternatives exceeds the limit, and its names are that product. It stands
for one name exactly where the product is one. An expression of several templates keeps to the limit
too. -/
theorem expand_product (template : String) (bindings : Bindings) (expression : String) :
    ((∃ names, expand template bindings = .ok names) ↔
        ∃ lists, Offers template bindings lists ∧
          ∀ first, first <+: lists → choices first ≤ maxNames) ∧
      (∀ lists names, Offers template bindings lists →
        expand template bindings = .ok names → IsProduct lists names) ∧
      ((∃ name, expandOne template bindings = .ok name) ↔
        ∃ lists, Offers template bindings lists ∧ choices lists = 1) ∧
      (∀ name, expandOne template bindings = .ok name ↔
        expand template bindings = .ok [name]) ∧
      ∀ names, expandAll expression = .ok names → names.length ≤ maxNames := by
  refine ⟨?_, ?_, ?_, fun name => expandOne_eq_ok_iff, ?_⟩
  · simp only [expand_eq_ok_iff]
    constructor
    · rintro ⟨_, lists, hoffers, hcapped, _⟩
      exact ⟨lists, hoffers, hcapped⟩
    · rintro ⟨lists, hoffers, hcapped⟩
      exact ⟨_, lists, hoffers, hcapped, rfl⟩
  · intro lists names hoffers h
    obtain ⟨others, hothers, _, hfound⟩ := expand_eq_ok_iff.1 h
    cases hoffers.unique hothers
    exact isProduct_iff.2 hfound
  · simp only [expandOne_eq_ok_iff, expand_eq_ok_iff]
    constructor
    · rintro ⟨name, lists, hoffers, _, hfound⟩
      exact ⟨lists, hoffers, (isProduct_iff.2 hfound).length_eq.symm⟩
    · rintro ⟨lists, hoffers, hone⟩
      have hlength := (isProduct_iff.2 (Eq.refl (lists.foldl extend [""]))).length_eq
      obtain ⟨name, hname⟩ := List.length_eq_one_iff.1 (hlength.trans hone)
      refine ⟨name, lists, hoffers, fun first hfirst => ?_, hname⟩
      rw [choices_eq_one_of_beginning hfirst hone]
      decide
  · intro names h
    have hlength := length_le_of_expandAllFrom (Nat.zero_le _) h
    rwa [Nat.zero_add] at hlength

end Sharding.Inline
