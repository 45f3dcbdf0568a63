import Mathlib.Algebra.GroupWithZero.Nat
import Sharding.Inline.Expansion
import Sharding.Proofs.Inline.Bodies
import Sharding.Proofs.Outcome
import Sharding.Proofs.Text
/-!
# Splitting what was joined

Splitting counts all braces of a text alike, scanning counts those of a placeholder that are not in
quotes. A joined text is split into the templates it was joined from where the two counts agree.
-/

namespace Sharding.Inline

open Outcome Text

namespace Template

/-- How many braces are open after a character. A closing brace too many counts for nothing. -/
def depthAfter (depth : Nat) (c : Char) : Nat :=
  if c = '{' then depth + 1 else if c = '}' then depth - 1 else depth

/-- How many braces are open after a text, unless a comma in it stands outside all of them. -/
def openAfter? (depth : Nat) : List Char → Option Nat
  | [] => some depth
  | c :: cs => if c = ',' ∧ depth = 0 then none else openAfter? (depthAfter depth c) cs

theorem cut_ne_nil (depth : Nat) (cs : List Char) : cut depth cs ≠ [] := by
  cases cs with
  | nil => exact List.cons_ne_nil _ _
  | cons c cs =>
    rw [cut]
    split
    · exact List.cons_ne_nil _ _
    · dsimp only
      split <;> exact List.cons_ne_nil _ _

theorem cut_cons (depth : Nat) (c : Char) (cs : List Char) : cut depth (c :: cs) =
    if c = ',' ∧ depth = 0 then [] :: cut depth cs
    else (cut (depthAfter depth c) cs).modifyHead (c :: ·) := by
  rw [cut, depthAfter]
  split
  · rfl
  · dsimp only
    split
    · next hnil => exact absurd hnil (cut_ne_nil _ _)
    · next hcut => rw [hcut, List.modifyHead_cons]

/-- A text without a comma of its own goes into one piece, with what follows it up to a comma. -/
theorem cut_append {depth next : Nat} {front : List Char} (h : openAfter? depth front = some next)
    (back : List Char) : cut depth (front ++ back) = (cut next back).modifyHead (front ++ ·) := by
  induction front generalizing depth with
  | nil =>
    cases h
    simp only [List.nil_append]
    exact (congrFun List.modifyHead_id _).symm
  | cons c cs ih =>
    rw [openAfter?] at h
    split at h
    · cases h
    · next hcomma =>
      rw [List.cons_append, cut_cons, if_neg hcomma, ih h, List.modifyHead_modifyHead]
      rfl

/-- A text is cut into several pieces at the comma after the first of them. -/
theorem exists_of_cut {depth : Nat} {cs piece : List Char} {pieces : List (List Char)}
    (h : cut depth cs = piece :: pieces) :
    (pieces = [] ∧ cs = piece ∧ (openAfter? depth piece).isSome) ∨
      ∃ rest, cs = piece ++ ',' :: rest ∧ openAfter? depth piece = some 0 ∧
        cut 0 rest = pieces := by
  induction cs generalizing depth piece with
  | nil =>
    cases h
    exact .inl ⟨rfl, rfl, rfl⟩
  | cons c cs ih =>
    rw [cut_cons] at h
    split at h
    · next hcomma =>
      obtain ⟨rfl, rfl⟩ := hcomma
      cases h
      exact .inr ⟨cs, rfl, rfl, rfl⟩
    · next hcomma =>
      cases hcut : cut (depthAfter depth c) cs with
      | nil => exact absurd hcut (cut_ne_nil _ _)
      | cons first more =>
        rw [hcut, List.modifyHead_cons] at h
        cases h
        rw [openAfter?, if_neg hcomma]
        obtain ⟨hmore, hcs, hopen⟩ | ⟨rest, hcs, hopen, hrest⟩ := ih hcut
        · exact .inl ⟨hmore, congrArg _ hcs, hopen⟩
        · exact .inr ⟨rest, congrArg _ hcs, hopen, hrest⟩

/-- No comma of the texts stands outside all braces, and all but the last close the braces they
open, every brace counted. -/
def Separable : List (List Char) → Prop
  | [] => False
  | [text] => (openAfter? 0 text).isSome
  | text :: texts => openAfter? 0 text = some 0 ∧ Separable texts

theorem cut_intercalate {texts : List (List Char)} (h : Separable texts) :
    cut 0 ([','].intercalate texts) = texts := by
  induction texts with
  | nil => exact h.elim
  | cons text texts ih =>
    cases texts with
    | nil =>
      obtain ⟨next, hnext⟩ := Option.isSome_iff_exists.1 h
      have hcut := cut_append hnext []
      rw [List.append_nil] at hcut
      rw [List.intercalate_singleton, hcut]
      simp [cut]
    | cons second texts =>
      rw [List.intercalate_cons_cons, List.append_assoc, cut_append h.1, List.singleton_append, cut,
        if_pos ⟨rfl, rfl⟩, ih h.2]
      simp

theorem separable_of_cut {cs : List Char} {texts : List (List Char)} (h : cut 0 cs = texts) :
    Separable texts := by
  induction texts generalizing cs with
  | nil => exact absurd h (cut_ne_nil _ _)
  | cons text texts ih =>
    obtain ⟨rfl, -, hopen⟩ | ⟨rest, -, hopen, hrest⟩ := exists_of_cut h
    · exact hopen
    · cases texts with
      | nil => exact absurd hrest (cut_ne_nil _ _)
      | cons second texts => exact ⟨hopen, ih hrest⟩

/-- Joining undoes cutting. -/
theorem intercalate_cut (cs : List Char) (depth : Nat) : [','].intercalate (cut depth cs) = cs := by
  induction hcut : cut depth cs generalizing depth cs with
  | nil => exact absurd hcut (cut_ne_nil _ _)
  | cons piece pieces ih =>
    obtain ⟨rfl, rfl, -⟩ | ⟨rest, rfl, -, hrest⟩ := exists_of_cut hcut
    · exact List.intercalate_singleton
    · have hjoin := ih rest 0 hrest
      cases pieces with
      | nil => exact absurd hrest (cut_ne_nil _ _)
      | cons second more =>
        rw [List.intercalate_cons_cons, hjoin, List.append_assoc, List.singleton_append]

/-- What texts take when they are joined, a comma after each of them counted. -/
def extent (texts : List (List Char)) : Nat :=
  (texts.map fun text => text.length + 1).sum

theorem extent_cons (text : List Char) (texts : List (List Char)) :
    extent (text :: texts) = text.length + 1 + extent texts := rfl

theorem extent_eq_length {texts : List (List Char)} (h : texts ≠ []) :
    extent texts = ([','].intercalate texts).length + 1 := by
  induction texts with
  | nil => exact absurd rfl h
  | cons text texts ih =>
    cases texts with
    | nil => rw [List.intercalate_singleton, extent_cons]; rfl
    | cons second texts =>
      rw [extent_cons, ih (List.cons_ne_nil _ _), List.intercalate_cons_cons]
      simp only [List.length_append, List.length_singleton]
      omega

/-- Templates that take as much as the pieces whose contents they are, are these pieces. -/
theorem eq_of_extent_le {pieces : List (List Char)} {ts : List String}
    (hts : pieces.filterMap (fun piece => content? (String.ofList piece)) = ts) :
    extent (ts.map String.toList) ≤ extent pieces ∧
      (extent pieces ≤ extent (ts.map String.toList) → ts.map String.toList = pieces) := by
  induction pieces generalizing ts with
  | nil =>
    cases hts
    exact ⟨Nat.le_refl _, fun _ => rfl⟩
  | cons piece pieces ih =>
    obtain ⟨hle, heq⟩ := ih rfl
    cases hcontent : content? (String.ofList piece) with
    | none =>
      simp only [List.filterMap_cons, hcontent] at hts
      rw [← hts, extent_cons]
      exact ⟨by omega, fun h => by omega⟩
    | some t =>
      simp only [List.filterMap_cons, hcontent] at hts
      have htrim : trim (String.ofList piece) = t := by
        rw [content?] at hcontent
        split at hcontent
        · cases hcontent
        · exact Option.some.inj hcontent
      have hsublist : t.toList.Sublist piece := by
        have h := trim_sublist (String.ofList piece)
        rwa [htrim, String.toList_ofList] at h
      have hlength := hsublist.length_le
      rw [← hts, List.map_cons, extent_cons, extent_cons]
      refine ⟨by omega, fun h => ?_⟩
      rw [hsublist.eq_of_length_le (by omega), heq (by omega)]

end Template

/-- A join of templates is split into them exactly if they are separable. -/
theorem split_intercalate_iff {ts : List String} (hne : ts ≠ [])
    (hts : ∀ t ∈ ts, trim t = t ∧ ¬isBlank t) :
    split (",".intercalate ts) = ts ↔ Template.Separable (ts.map String.toList) := by
  have hne' : ts.map String.toList ≠ [] := by simpa using hne
  have hcomma : ",".toList = [','] := rfl
  rw [split, String.toList_intercalate, hcomma]
  constructor
  · intro h
    have hjoin := Template.intercalate_cut ([','].intercalate (ts.map String.toList)) 0
    obtain ⟨-, heq⟩ := Template.eq_of_extent_le h
    refine Template.separable_of_cut (heq ?_).symm
    rw [Template.extent_eq_length hne', Template.extent_eq_length (Template.cut_ne_nil _ _)]
    exact Nat.le_of_eq (congrArg (·.length + 1) hjoin)
  · intro h
    have hcontent : ∀ t ∈ ts, content? (String.ofList t.toList) = some t := by
      intro t ht
      rw [String.ofList_toList]
      exact content?_eq_self (hts t ht).1 (hts t ht).2
    rw [Template.cut_intercalate h, List.filterMap_map, Function.comp_def,
      List.filterMap_congr hcontent, List.filterMap_some]

/-! ## Braces that both count -/

/-- All commas of a template stand in its placeholders. -/
def Segment.WithoutComma : Segment → Prop
  | .literal text => ',' ∉ text
  | .placeholder _ => True

/-- No brace of a body stands in quotes. -/
def BracesUnquoted : Option Char → List Char → Prop
  | _, [] => True
  | some quote, '\\' :: c :: cs => c ≠ '{' ∧ c ≠ '}' ∧ BracesUnquoted (some quote) cs
  | some quote, c :: cs =>
    c ≠ '{' ∧ c ≠ '}' ∧ BracesUnquoted (if c = quote then none else some quote) cs
  | none, c :: cs => BracesUnquoted (if c = '\'' ∨ c = '"' then some c else none) cs

/-- All braces of a template open or close a placeholder or stand in its body outside quotes. -/
def Segment.BracesPaired : Segment → Prop
  | .literal text => '{' ∉ text ∧ '}' ∉ text
  | .placeholder body => BracesUnquoted none body

namespace Template

theorem openAfter?_plain {depth : Nat} {c : Char} (hopen : c ≠ '{') (hclose : c ≠ '}')
    (hcomma : c = ',' → depth ≠ 0) (cs : List Char) :
    openAfter? depth (c :: cs) = openAfter? depth cs := by
  rw [openAfter?, if_neg fun h => hcomma h.1 h.2, depthAfter, if_neg hopen, if_neg hclose]

theorem openAfter?_open (depth : Nat) (cs : List Char) :
    openAfter? depth ('{' :: cs) = openAfter? (depth + 1) cs := rfl

theorem openAfter?_close (depth : Nat) (cs : List Char) :
    openAfter? (depth + 1) ('}' :: cs) = openAfter? depth cs := rfl

/-- In a body without quoted braces the scan counts the braces that the text has. -/
theorem openAfter?_of_body? {depth : Nat} {quote : Option Char} {cs body : List Char}
    (h : body? depth quote cs = some body) (hbody : BracesUnquoted quote body) :
    openAfter? (depth + 1) cs = openAfter? 0 (cs.drop (body.length + 1)) := by
  have hinside : ∀ (depth : Nat) {c : Char}, c ≠ '{' → c ≠ '}' → ∀ cs,
      openAfter? (depth + 1) (c :: cs) = openAfter? (depth + 1) cs := fun depth _ hopen hclose =>
    openAfter?_plain hopen hclose fun _ => Nat.succ_ne_zero depth
  induction depth, quote, cs using body?.induct generalizing body with
  | case1 depth quote => cases h
  | case2 depth quote c cs ih =>
    rw [body?] at h
    obtain ⟨more, hmore, rfl⟩ := Option.map_eq_some_iff.1 h
    rw [BracesUnquoted] at hbody
    obtain ⟨hopen, hclose, hbraces⟩ := hbody
    rw [hinside depth (by decide) (by decide), hinside depth hopen hclose, ih hmore hbraces]
    rfl
  | case3 depth quote c cs hslash ih =>
    rw [body?.eq_3 _ _ _ _ hslash] at h
    obtain ⟨more, hmore, rfl⟩ := Option.map_eq_some_iff.1 h
    have hslash' : ∀ d ds, c = '\\' → more = d :: ds → False := by
      intro d ds hc hds
      cases cs with
      | nil => cases hmore
      | cons e es => exact hslash e es hc rfl
    rw [BracesUnquoted.eq_3 _ _ _ hslash'] at hbody
    obtain ⟨hopen, hclose, hbraces⟩ := hbody
    rw [hinside depth hopen hclose, ih hmore hbraces]
    rfl
  | case4 depth c cs hquote ih =>
    rw [body?_cons, if_pos hquote] at h
    obtain ⟨more, hmore, rfl⟩ := Option.map_eq_some_iff.1 h
    rw [BracesUnquoted, if_pos hquote] at hbody
    have hplain : c ≠ '{' ∧ c ≠ '}' := by rcases hquote with rfl | rfl <;> decide
    rw [hinside depth hplain.1 hplain.2, ih hmore hbody]
    rfl
  | case5 depth cs hquote ih =>
    rw [body?_cons, if_neg hquote, if_pos rfl] at h
    obtain ⟨more, hmore, rfl⟩ := Option.map_eq_some_iff.1 h
    rw [BracesUnquoted, if_neg hquote] at hbody
    rw [openAfter?_open, ih hmore hbody]
    rfl
  | case6 cs hquote hopen =>
    rw [body?_cons, if_neg hquote, if_neg hopen, if_pos rfl] at h
    cases h
    rfl
  | case7 cs depth hquote hopen ih =>
    rw [body?_cons, if_neg hquote, if_neg hopen, if_pos rfl] at h
    obtain ⟨more, hmore, rfl⟩ := Option.map_eq_some_iff.1 h
    rw [BracesUnquoted, if_neg hquote] at hbody
    rw [openAfter?_close, ih hmore hbody]
    rfl
  | case8 depth c cs hquote hopen hclose ih =>
    rw [body?_cons, if_neg hquote, if_neg hopen, if_neg hclose] at h
    obtain ⟨more, hmore, rfl⟩ := Option.map_eq_some_iff.1 h
    rw [BracesUnquoted, if_neg hquote] at hbody
    rw [hinside depth hopen hclose, ih hmore hbody]
    rfl

/-- What holds of the literal in front and of its endings. -/
theorem of_consLiteral {P : Segment → Prop} {c : Char} {segments : List Segment}
    (hending : ∀ text, P (.literal (c :: text)) → P (.literal text))
    (h : ∀ s ∈ consLiteral c segments, P s) :
    (∃ text, P (.literal (c :: text))) ∧ ∀ s ∈ segments, P s := by
  unfold consLiteral at h
  split at h
  · next text segments =>
    obtain ⟨hfirst, hmore⟩ := List.forall_mem_cons.1 h
    exact ⟨⟨text, hfirst⟩, List.forall_mem_cons.2 ⟨hending text hfirst, hmore⟩⟩
  · obtain ⟨hfirst, hmore⟩ := List.forall_mem_cons.1 h
    exact ⟨⟨[], hfirst⟩, hmore⟩

theorem openAfter?_of_placeholder {cs body : List Char} (hbody : body? 0 none cs = some body)
    (hpaired : (Segment.placeholder body).BracesPaired)
    (hrest : openAfter? 0 (cs.drop (body.length + 1)) = some 0) :
    openAfter? 0 ('{' :: cs) = some 0 := by
  rw [openAfter?_open, openAfter?_of_body? hbody hpaired, hrest]

theorem openAfter?_of_scan {cs : List Char} {segments : List Segment}
    (h : scan cs = some segments) (hcommas : ∀ s ∈ segments, s.WithoutComma)
    (hbraces : ∀ s ∈ segments, s.BracesPaired) : openAfter? 0 cs = some 0 := by
  induction cs using scan.induct generalizing segments with
  | case1 => rfl
  | case2 cs ih =>
    rw [scan] at h
    obtain ⟨body, hbody, h⟩ := Option.bind_eq_some_iff.1 h
    obtain ⟨more, hmore, rfl⟩ := Option.map_eq_some_iff.1 h
    obtain ⟨hpaired, hmoreBraces⟩ := List.forall_mem_cons.1 hbraces
    have hrest := ih body hmore (List.forall_mem_cons.1 hcommas).2 hmoreBraces
    exact openAfter?_of_placeholder hbody hpaired hrest
  | case3 cs ih =>
    rw [scan] at h
    obtain ⟨body, hbody, h⟩ := Option.bind_eq_some_iff.1 h
    obtain ⟨more, hmore, rfl⟩ := Option.map_eq_some_iff.1 h
    obtain ⟨hpaired, hmoreBraces⟩ := List.forall_mem_cons.1 hbraces
    have hrest := ih body hmore (List.forall_mem_cons.1 hcommas).2 hmoreBraces
    exact openAfter?_of_placeholder hbody hpaired hrest
  | case4 c cs hbrace hdash ih =>
    rw [scan.eq_4 _ _ hbrace hdash] at h
    obtain ⟨more, hmore, rfl⟩ := Option.map_eq_some_iff.1 h
    obtain ⟨⟨text, hcomma⟩, hmoreCommas⟩ := of_consLiteral
      (fun text h => fun hmem => h (List.mem_cons_of_mem _ hmem)) hcommas
    obtain ⟨⟨text', hpaired⟩, hmoreBraces⟩ := of_consLiteral
      (fun text h => ⟨fun hmem => h.1 (List.mem_cons_of_mem _ hmem),
        fun hmem => h.2 (List.mem_cons_of_mem _ hmem)⟩) hbraces
    rw [openAfter?_plain, ih hmore hmoreCommas hmoreBraces]
    · rintro rfl
      exact hpaired.1 List.mem_cons_self
    · rintro rfl
      exact hpaired.2 List.mem_cons_self
    · rintro rfl
      exact absurd List.mem_cons_self hcomma

/-- A template that can stand in a comma-joined text. -/
structure Joinable (t : String) : Prop where
  trimmed : trim t = t
  notBlank : ¬isBlank t
  scanned : ∃ segments, scan t.toList = some segments ∧ ∀ s ∈ segments, s.WithoutComma

theorem separable_of_forall {texts : List (List Char)} (hne : texts ≠ [])
    (h : ∀ text ∈ texts, openAfter? 0 text = some 0) : Separable texts := by
  induction texts with
  | nil => exact hne rfl
  | cons text texts ih =>
    obtain ⟨htext, hmore⟩ := List.forall_mem_cons.1 h
    cases texts with
    | nil => exact Option.isSome_of_eq_some htext
    | cons second texts => exact ⟨htext, ih (List.cons_ne_nil _ _) hmore⟩

end Template

/-- Templates one after another stand for their names one after another. -/
theorem expandAllFrom_eq_ok {expression : String} {count : Nat} {ts : List String}
    {names : List (List String)} (htrim : ∀ t ∈ ts, trim t = t)
    (h : List.Forall₂ (fun t found => expand t [] = .ok found) ts names)
    (hcount : count + names.flatten.length ≤ maxNames) :
    expandAllFrom expression count ts = .ok names.flatten := by
  induction h generalizing count with
  | nil => rfl
  | @cons t found ts names hfound hrest ih =>
    rw [List.flatten_cons, List.length_append] at hcount
    have hmore := @ih (count + found.length) (List.forall_mem_cons.1 htrim).2 (by omega)
    rw [expand, htrim t List.mem_cons_self] at hfound
    rw [expandAllFrom]
    refine bind_eq_ok.2 ⟨found, hfound, ?_⟩
    rw [if_neg (by omega)]
    exact bind_eq_ok.2 ⟨names.flatten, hmore, rfl⟩

/-- Templates whose braces all count are split from their join, and the join stands for the names of
each in turn. -/
theorem split_intercalate_of_bracesPaired {ts : List String} (hne : ts ≠ [])
    (hts : ∀ t ∈ ts, Template.Joinable t)
    (hbraces : ∀ t ∈ ts, ∀ segments, Template.scan t.toList = some segments →
      ∀ s ∈ segments, s.BracesPaired) :
    split (",".intercalate ts) = ts ∧
      ∀ names : List (List String),
        List.Forall₂ (fun t found => expand t [] = .ok found) ts names →
        names.flatten.length ≤ maxNames →
        expandAll (",".intercalate ts) = .ok names.flatten := by
  have hsplit : split (",".intercalate ts) = ts := by
    rw [split_intercalate_iff hne fun t ht => ⟨(hts t ht).trimmed, (hts t ht).notBlank⟩]
    apply Template.separable_of_forall (by simpa using hne)
    intro text htext
    obtain ⟨t, ht, rfl⟩ := List.mem_map.1 htext
    obtain ⟨segments, hscan, hcommas⟩ := (hts t ht).scanned
    exact Template.openAfter?_of_scan hscan hcommas (hbraces t ht segments hscan)
  refine ⟨hsplit, fun names hnames hcount => ?_⟩
  rw [expandAll, hsplit]
  exact expandAllFrom_eq_ok (fun t ht => (hts t ht).trimmed) hnames (by rwa [Nat.zero_add])

theorem evaluate_zeroOne :
    evaluate ['[', '0', ',', ' ', '1', ']'] [] = .ok (.list [.int 0, .int 1]) := by
  have htokens : Token.readAll ['[', '0', ',', ' ', '1', ']'] =
      .ok [.openBracket, .int 0, .comma, .int 1, .closeBracket] :=
    eq_ok_of_toOption (by decide +kernel)
  have hread : Expr.ofTokens [.openBracket, .int 0, .comma, .int 1, .closeBracket] =
      .list [.int 0, .int 1] := by
    simp [Expr.ofTokens, Phrase.range, Phrase.additive, Phrase.term, Phrase.unary, Phrase.primary,
      Phrase.factors, Phrase.addends, Phrase.upTo, Phrase.items, Phrase.moreItems,
      Phrase.additiveOperator?, Phrase.termOperator?]
  refine bind_eq_ok.2 ⟨_, htokens, ?_⟩
  rw [hread]
  rfl

theorem evaluate_twoToThree :
    evaluate ['2', '.', '.', '3'] [] = .ok (.list [.int 2, .int 3]) := by
  have htokens : Token.readAll ['2', '.', '.', '3'] = .ok [.int 2, .dots, .int 3] :=
    eq_ok_of_toOption (by decide +kernel)
  have hread : Expr.ofTokens [.int 2, .dots, .int 3] = .range (.int 2) (.int 3) := by
    simp [Expr.ofTokens, Phrase.range, Phrase.additive, Phrase.term, Phrase.unary, Phrase.primary,
      Phrase.factors, Phrase.addends, Phrase.upTo, Phrase.additiveOperator?, Phrase.termOperator?]
  refine bind_eq_ok.2 ⟨_, htokens, ?_⟩
  rw [hread]
  rfl

theorem split_intercalate_of_bracesPaired_pair :
    split "a.t_$\x7b[0, 1]\x7d,b.t_$\x7b2..3\x7d" = ["a.t_$\x7b[0, 1]\x7d", "b.t_$\x7b2..3\x7d"] ∧
      expandAll "a.t_$\x7b[0, 1]\x7d,b.t_$\x7b2..3\x7d" =
        .ok ["a.t_0", "a.t_1", "b.t_2", "b.t_3"] := by
  have hfirst : Template.scan "a.t_$\x7b[0, 1]\x7d".toList =
      some [.literal ['a', '.', 't', '_'], .placeholder ['[', '0', ',', ' ', '1', ']']] := by
    decide +kernel
  have hsecond : Template.scan "b.t_$\x7b2..3\x7d".toList =
      some [.literal ['b', '.', 't', '_'], .placeholder ['2', '.', '.', '3']] := by
    decide +kernel
  have hjoinable : ∀ t ∈ ["a.t_$\x7b[0, 1]\x7d", "b.t_$\x7b2..3\x7d"], Template.Joinable t := by
    refine List.forall_mem_cons.2 ⟨⟨by decide, by decide, _, hfirst, ?_⟩,
      List.forall_mem_singleton.2 ⟨by decide, by decide, _, hsecond, ?_⟩⟩ <;>
      simp [Segment.WithoutComma]
  have hpaired : ∀ t ∈ ["a.t_$\x7b[0, 1]\x7d", "b.t_$\x7b2..3\x7d"],
      ∀ segments, Template.scan t.toList = some segments → ∀ s ∈ segments, s.BracesPaired := by
    simp only [List.forall_mem_cons, hfirst, hsecond]
    simp [Segment.BracesPaired, BracesUnquoted]
  have hnumerals : [0, 1, 2, 3].map Numeral.print = ["0", "1", "2", "3"] := by decide
  simp only [List.map_cons, List.map_nil, List.cons.injEq, and_true] at hnumerals
  have hexpandFirst : expand "a.t_$\x7b[0, 1]\x7d" [] = .ok ["a.t_0", "a.t_1"] := by
    rw [expand, (hjoinable _ (by simp)).trimmed, expandTrimmed, hfirst]
    simp [expandFrom, Segment.alternatives, evaluate_zeroOne, Datum.render, hnumerals, extend,
      maxNames]
    rfl
  have hexpandSecond : expand "b.t_$\x7b2..3\x7d" [] = .ok ["b.t_2", "b.t_3"] := by
    rw [expand, (hjoinable _ (by simp)).trimmed, expandTrimmed, hsecond]
    simp [expandFrom, Segment.alternatives, evaluate_twoToThree, Datum.render, hnumerals, extend,
      maxNames]
    rfl
  have hnames : List.Forall₂ (fun t found => expand t [] = .ok found)
      ["a.t_$\x7b[0, 1]\x7d", "b.t_$\x7b2..3\x7d"] [["a.t_0", "a.t_1"], ["b.t_2", "b.t_3"]] :=
    .cons hexpandFirst (.cons hexpandSecond .nil)
  obtain ⟨hsplit, hexpand⟩ :=
    split_intercalate_of_bracesPaired (List.cons_ne_nil _ _) hjoinable hpaired
  exact ⟨hsplit, hexpand _ hnames (by decide)⟩

/-- Quoted braces count in a split though they do not in a scan: a template whose string holds a
closing brace and a comma is cut within its placeholder. -/
theorem not_split_intercalate : ¬∀ ts : List String, ts ≠ [] →
    (∀ t ∈ ts, Template.Joinable t) → split (",".intercalate ts) = ts := by
  intro h
  have hscan : Template.scan "$\x7b'\x7d,'\x7d".toList =
      some [.placeholder ['\'', '}', ',', '\'']] := by decide +kernel
  have hjoinable : Template.Joinable "$\x7b'\x7d,'\x7d" := by
    refine ⟨by decide, by decide, _, hscan, ?_⟩
    simp [Segment.WithoutComma]
  have hsplit := h ["$\x7b'\x7d,'\x7d"] (by decide) (by simpa using hjoinable)
  exact absurd hsplit (by decide)

end Sharding.Inline
