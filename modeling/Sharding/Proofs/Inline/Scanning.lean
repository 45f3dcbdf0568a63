import Mathlib.Data.List.Chain
import Sharding.Inline.Expansion
import Sharding.Proofs.Inline.Bodies
import Sharding.Proofs.Outcome
import Sharding.Proofs.Text
/-!
# Scanning loses nothing

A template is scanned into the segments that it is written with: literals as long as they can be,
and placeholders with either opener. A text without an opener stands for itself.
-/

namespace Sharding.Inline

open Outcome Text

namespace Template

/-- What a placeholder can begin with. -/
def openers : List (List Char) := [['$', '{'], ['$', '-', '>', '{']]

theorem notPrefix_iff {c : Char} {cs : List Char} :
    (∀ opener ∈ openers, ¬opener <+: c :: cs) ↔
      (∀ rest, c = '$' → cs = '{' :: rest → False) ∧
        ∀ rest, c = '$' → cs = '-' :: '>' :: '{' :: rest → False := by
  constructor
  · intro h
    constructor
    · rintro rest rfl rfl
      exact h ['$', '{'] (by decide) ⟨rest, rfl⟩
    · rintro rest rfl rfl
      exact h ['$', '-', '>', '{'] (by decide) ⟨rest, rfl⟩
  · rintro ⟨hbrace, hdash⟩ opener hopener ⟨rest, hrest⟩
    simp only [openers, List.mem_cons, List.not_mem_nil, or_false] at hopener
    rcases hopener with rfl | rfl
    · cases hrest
      exact hbrace rest rfl rfl
    · cases hrest
      exact hdash rest rfl rfl

/-- Only the first character of an opener can begin another one. -/
theorem not_prefix_append {opener text rest : List Char} (hopener : opener ∈ openers)
    (hne : text ≠ []) (htext : ¬opener <+: text) (hrest : ∀ c ∈ rest.head?, c = '$') :
    ¬opener <+: text ++ rest := by
  intro h
  rcases List.prefix_or_prefix_of_prefix h (List.prefix_append text rest) with hin | ⟨more, rfl⟩
  · exact htext hin
  · rw [List.prefix_append_right_inj] at h
    obtain ⟨first, text, rfl⟩ := List.exists_cons_of_ne_nil hne
    have htail : ∀ opener ∈ openers, '$' ∉ opener.tail := by decide
    cases more with
    | nil => exact htext (by simp)
    | cons d ds =>
      obtain ⟨last, rfl⟩ := h
      have hd : d = '$' := hrest d rfl
      exact htail _ hopener (by simp [hd])

theorem hasOpener_iff {cs : List Char} :
    hasOpener cs ↔ ∃ opener ∈ openers, opener <:+: cs := by
  induction cs using hasOpener.induct with
  | case1 => simp [hasOpener, openers]
  | case2 cs => exact iff_of_true rfl ⟨['$', '{'], by decide, [], cs, rfl⟩
  | case3 cs => exact iff_of_true rfl ⟨['$', '-', '>', '{'], by decide, [], cs, rfl⟩
  | case4 c cs hbrace hdash ih =>
    rw [hasOpener.eq_4 _ _ hbrace hdash, ih]
    have hfront := notPrefix_iff.2 ⟨hbrace, hdash⟩
    constructor
    · rintro ⟨opener, hopener, hin⟩
      exact ⟨opener, hopener, List.infix_cons hin⟩
    · rintro ⟨opener, hopener, hin⟩
      rcases List.infix_cons_iff.1 hin with hstart | hin
      · exact absurd hstart (hfront opener hopener)
      · exact ⟨opener, hopener, hin⟩

/-! ## One segment at a time -/

theorem scan_opener {opener : List Char} (h : opener ∈ openers) (cs : List Char) :
    scan (opener ++ cs) = (do
      let body ← body? 0 none cs
      (.placeholder body :: ·) <$> scan (cs.drop (body.length + 1))) := by
  simp only [openers, List.mem_cons, List.not_mem_nil, or_false] at h
  rcases h with rfl | rfl
  · exact scan.eq_2 cs
  · exact scan.eq_3 cs

theorem scan_plain {c : Char} {cs : List Char} (h : ∀ opener ∈ openers, ¬opener <+: c :: cs) :
    scan (c :: cs) = consLiteral c <$> scan cs := by
  obtain ⟨hbrace, hdash⟩ := notPrefix_iff.1 h
  exact scan.eq_4 _ _ hbrace hdash

end Template

/-- The segment is written as this text. A placeholder can have either opener. -/
def Segment.IsWritten : Segment → List Char → Prop
  | .literal text, written => written = text
  | .placeholder body, written => ∃ opener ∈ Template.openers, written = opener ++ body ++ ['}']

/-- A literal is not empty and has no opener in it, and a body closes what it opens. -/
def Segment.IsProper : Segment → Prop
  | .literal text => text ≠ [] ∧ ∀ opener ∈ Template.openers, ¬opener <:+: text
  | .placeholder body => Closes 0 body

def Segment.IsLiteral : Segment → Prop
  | .literal _ => True
  | .placeholder _ => False

namespace Template

/-- The text is what the segments are written as one after another, and no two literals are
neighbours. -/
structure ReadAs (cs : List Char) (segments : List Segment) : Prop where
  written : ∃ pieces, List.Forall₂ Segment.IsWritten segments pieces ∧ pieces.flatten = cs
  proper : ∀ segment ∈ segments, segment.IsProper
  apart : segments.IsChain fun a b => ¬(a.IsLiteral ∧ b.IsLiteral)

variable {cs text : List Char} {segment : Segment} {segments : List Segment}

theorem readAs_nil : ReadAs cs [] ↔ cs = [] := by
  constructor
  · rintro ⟨⟨pieces, hpieces, rfl⟩, _, _⟩
    cases hpieces
    rfl
  · rintro rfl
    exact ⟨⟨[], .nil, rfl⟩, List.forall_mem_nil _, .nil⟩

theorem readAs_cons : ReadAs cs (segment :: segments) ↔
    ∃ piece rest, cs = piece ++ rest ∧ segment.IsWritten piece ∧ segment.IsProper ∧
      (∀ next ∈ segments.head?, ¬(segment.IsLiteral ∧ next.IsLiteral)) ∧ ReadAs rest segments := by
  constructor
  · rintro ⟨⟨_, hpieces, rfl⟩, hproper, hapart⟩
    obtain ⟨piece, pieces, hpiece, hmore, rfl⟩ := List.forall₂_cons_left_iff.1 hpieces
    obtain ⟨hfirst, hproper⟩ := List.forall_mem_cons.1 hproper
    obtain ⟨hnext, hapart⟩ := List.isChain_cons.1 hapart
    exact ⟨piece, pieces.flatten, rfl, hpiece, hfirst, hnext, ⟨pieces, hmore, rfl⟩, hproper,
      hapart⟩
  · rintro ⟨piece, _, rfl, hpiece, hfirst, hnext, ⟨pieces, hpieces, rfl⟩, hproper, hapart⟩
    exact ⟨⟨piece :: pieces, .cons hpiece hpieces, rfl⟩, List.forall_mem_cons.2 ⟨hfirst, hproper⟩,
      List.isChain_cons.2 ⟨hnext, hapart⟩⟩

theorem drop_body (body rest : List Char) :
    (body ++ '}' :: rest).drop (body.length + 1) = rest := by
  rw [← List.singleton_append, ← List.append_assoc]
  exact List.drop_left' (by simp)

theorem readAs_placeholder {opener body : List Char} (hopener : opener ∈ openers)
    (hbody : body? 0 none cs = some body) (h : ReadAs (cs.drop (body.length + 1)) segments) :
    ReadAs (opener ++ cs) (.placeholder body :: segments) := by
  obtain ⟨hcloses, rest, rfl⟩ := body?_eq_some_iff.1 hbody
  rw [drop_body] at h
  refine readAs_cons.2 ⟨_, rest, ?_, ⟨opener, hopener, rfl⟩, hcloses, fun _ _ h => h.1, h⟩
  simp

theorem readAs_consLiteral {c : Char} (hc : ∀ opener ∈ openers, ¬opener <+: c :: cs)
    (h : ReadAs cs segments) : ReadAs (c :: cs) (consLiteral c segments) := by
  have halone : ∀ opener ∈ openers, ¬opener <:+: [c] := by
    intro opener hopener hin
    have hlong : ∀ opener ∈ openers, 1 < opener.length := by decide
    exact absurd hin.length_le (Nat.not_le.2 (hlong opener hopener))
  have hnew {segments : List Segment} (hnext : ∀ next ∈ segments.head?, ¬next.IsLiteral)
      (h : ReadAs cs segments) : ReadAs (c :: cs) (.literal [c] :: segments) :=
    readAs_cons.2 ⟨[c], cs, rfl, rfl, ⟨List.cons_ne_nil _ _, halone⟩,
      fun next hmem hboth => hnext next hmem hboth.2, h⟩
  cases segments with
  | nil => exact hnew (by simp) h
  | cons segment segments =>
    cases segment with
    | placeholder body => exact hnew (by simp [Segment.IsLiteral]) h
    | literal _ =>
      obtain ⟨text, rest, rfl, rfl, ⟨_, htext⟩, hnext, hrest⟩ := readAs_cons.1 h
      refine readAs_cons.2 ⟨c :: text, rest, rfl, rfl, ⟨List.cons_ne_nil _ _, ?_⟩, hnext, hrest⟩
      intro opener hopener hin
      rcases List.infix_cons_iff.1 hin with hstart | hin
      · exact hc opener hopener (hstart.trans (List.prefix_append (c :: text) rest))
      · exact htext opener hopener hin

theorem readAs_of_scan (h : scan cs = some segments) : ReadAs cs segments := by
  induction cs using scan.induct generalizing segments with
  | case1 =>
    rw [scan] at h
    cases h
    exact readAs_nil.2 rfl
  | case2 cs ih =>
    rw [scan] at h
    obtain ⟨body, hbody, h⟩ := Option.bind_eq_some_iff.1 h
    obtain ⟨more, hmore, rfl⟩ := Option.map_eq_some_iff.1 h
    have hopener : ['$', '{'] ∈ openers := by decide
    exact readAs_placeholder hopener hbody (ih body hmore)
  | case3 cs ih =>
    rw [scan] at h
    obtain ⟨body, hbody, h⟩ := Option.bind_eq_some_iff.1 h
    obtain ⟨more, hmore, rfl⟩ := Option.map_eq_some_iff.1 h
    have hopener : ['$', '-', '>', '{'] ∈ openers := by decide
    exact readAs_placeholder hopener hbody (ih body hmore)
  | case4 c cs hbrace hdash ih =>
    rw [scan.eq_4 _ _ hbrace hdash] at h
    obtain ⟨more, hmore, rfl⟩ := Option.map_eq_some_iff.1 h
    exact readAs_consLiteral (notPrefix_iff.2 ⟨hbrace, hdash⟩) (ih hmore)

/-- What follows a literal is the end or begins with an opener. -/
theorem ReadAs.head_eq (h : ReadAs cs segments)
    (hnext : ∀ next ∈ segments.head?, ¬next.IsLiteral) : ∀ c ∈ cs.head?, c = '$' := by
  cases segments with
  | nil => simp [readAs_nil.1 h]
  | cons segment segments =>
    obtain ⟨piece, rest, rfl, hpiece, _⟩ := readAs_cons.1 h
    cases segment with
    | literal text => exact absurd trivial (hnext _ rfl)
    | placeholder body =>
      obtain ⟨opener, hopener, rfl⟩ := hpiece
      simp only [openers, List.mem_cons, List.not_mem_nil, or_false] at hopener
      rcases hopener with rfl | rfl <;> simp

theorem scan_literal {rest : List Char} (htext : ∀ opener ∈ openers, ¬opener <:+: text)
    (hrest : ∀ c ∈ rest.head?, c = '$') :
    scan (text ++ rest) = (text.foldr consLiteral ·) <$> scan rest := by
  induction text with
  | nil => simp
  | cons c text ih =>
    have hplain : ∀ opener ∈ openers, ¬opener <+: c :: text ++ rest := fun opener hopener =>
      not_prefix_append hopener (List.cons_ne_nil _ _)
        (fun hstart => htext opener hopener hstart.isInfix) hrest
    rw [List.cons_append] at hplain ⊢
    rw [scan_plain hplain, ih fun opener hopener hin => htext opener hopener (List.infix_cons hin)]
    cases scan rest <;> rfl

theorem foldr_consLiteral (hne : text ≠ []) (hnext : ∀ next ∈ segments.head?, ¬next.IsLiteral) :
    text.foldr consLiteral segments = .literal text :: segments := by
  induction text with
  | nil => exact absurd rfl hne
  | cons c text ih =>
    rw [List.foldr_cons]
    cases text with
    | cons d text =>
      rw [ih (List.cons_ne_nil _ _)]
      rfl
    | nil =>
      cases segments with
      | nil => rfl
      | cons segment segments =>
        cases segment with
        | literal text => exact absurd trivial (hnext _ rfl)
        | placeholder body => rfl

theorem scan_of_readAs (h : ReadAs cs segments) : scan cs = some segments := by
  induction segments generalizing cs with
  | nil =>
    cases readAs_nil.1 h
    rw [scan]
  | cons segment segments ih =>
    obtain ⟨piece, rest, rfl, hpiece, hproper, hnext, hrest⟩ := readAs_cons.1 h
    cases segment with
    | literal text =>
      have hnext : ∀ next ∈ segments.head?, ¬next.IsLiteral := fun next hmem hliteral =>
        hnext next hmem ⟨trivial, hliteral⟩
      rw [hpiece, scan_literal hproper.2 (hrest.head_eq hnext), ih hrest]
      exact congrArg some (foldr_consLiteral hproper.1 hnext)
    | placeholder body =>
      obtain ⟨opener, hopener, rfl⟩ := hpiece
      rw [List.append_assoc, List.append_assoc, List.singleton_append, scan_opener hopener,
        body?_of_closes hproper]
      simp only [Option.bind_eq_bind, Option.bind_some, drop_body, ih hrest]
      rfl

/-- Scanning yields the segments that a text is read as, wherever it can be read. -/
theorem scan_eq_some_iff : scan cs = some segments ↔ ReadAs cs segments :=
  ⟨readAs_of_scan, scan_of_readAs⟩

/-! ## Texts without openers -/

theorem exists_scan_of_not_hasOpener (h : hasOpener cs = false) :
    ∃ segments, scan cs = some segments ∧
      (cs = [] ∧ segments = [] ∨ segments = [.literal cs]) := by
  have hnone : ∀ opener ∈ openers, ¬opener <:+: cs := by
    intro opener hopener hin
    rw [hasOpener_iff.2 ⟨opener, hopener, hin⟩] at h
    cases h
  cases cs with
  | nil => exact ⟨[], by rw [scan], .inl ⟨rfl, rfl⟩⟩
  | cons c cs =>
    refine ⟨[.literal (c :: cs)], scan_eq_some_iff.2 (readAs_cons.2 ?_), .inr rfl⟩
    exact ⟨c :: cs, [], (List.append_nil _).symm, rfl, ⟨List.cons_ne_nil _ _, hnone⟩, by simp,
      readAs_nil.2 rfl⟩

theorem hasOpener_eq_false_iff : hasOpener cs = false ↔
    ∃ segments, scan cs = some segments ∧ ∀ body, .placeholder body ∉ segments := by
  constructor
  · intro h
    obtain ⟨segments, hscan, ⟨_, rfl⟩ | rfl⟩ := exists_scan_of_not_hasOpener h
    · exact ⟨[], hscan, by simp⟩
    · exact ⟨_, hscan, by simp⟩
  · rintro ⟨segments, hscan, hnone⟩
    have hread := scan_eq_some_iff.1 hscan
    cases segments with
    | nil =>
      rw [readAs_nil.1 hread]
      rfl
    | cons segment segments =>
      obtain ⟨piece, rest, rfl, hpiece, hproper, hnext, hrest⟩ := readAs_cons.1 hread
      cases segment with
      | placeholder body => exact absurd List.mem_cons_self (hnone body)
      | literal text =>
        cases segments with
        | nil =>
          rw [readAs_nil.1 hrest, hpiece, List.append_nil, Bool.eq_false_iff, ne_eq,
            hasOpener_iff]
          rintro ⟨opener, hopener, hin⟩
          exact hproper.2 opener hopener hin
        | cons next segments =>
          -- without placeholders the next segment would be another literal
          cases next with
          | literal other => exact absurd ⟨trivial, trivial⟩ (hnext _ rfl)
          | placeholder body => exact absurd (by simp) (hnone body)

end Template

theorem expand_of_not_isInline {template : String} (h : isInline template = false)
    (bindings : Bindings) : expand template bindings = .ok [trim template] := by
  have htrim : Template.hasOpener (trim template).toList = false := by
    rw [Bool.eq_false_iff, ne_eq, Template.hasOpener_iff]
    rintro ⟨opener, hopener, hin⟩
    have hall := Template.hasOpener_iff.2 ⟨opener, hopener, hin.trans (trim_isInfix template)⟩
    cases h.symm.trans hall
  obtain ⟨segments, hscan, hsegments⟩ := Template.exists_scan_of_not_hasOpener htrim
  rw [expand, expandTrimmed, hscan]
  dsimp only
  rcases hsegments with ⟨hempty, rfl⟩ | rfl
  · rw [String.toList_eq_nil_iff.1 hempty, expandFrom]
  · simp [expandFrom, Segment.alternatives, extend, maxNames, bind, Except.bind]

/-- A template is scanned into segments exactly where it can be read as them, so writing them again
gives the template. It is no expression exactly where it is scanned without placeholders, and then
it stands for itself without the space at its ends. -/
theorem scan_lossless (template : String) :
    (∀ segments, Template.scan template.toList = some segments ↔
        Template.ReadAs template.toList segments) ∧
      (isInline template = false ↔ ∃ segments,
        Template.scan template.toList = some segments ∧ ∀ body, .placeholder body ∉ segments) ∧
      (isInline template = false → ∀ bindings, expand template bindings = .ok [trim template]) :=
  ⟨fun _ => Template.scan_eq_some_iff, Template.hasOpener_eq_false_iff, expand_of_not_isInline⟩

/-- A dollar sign of a literal before an opener, a brace in quotes, and a text that almost has an
opener. -/
theorem scan_lossless_dollars :
    Template.scan "a$$->\x7b'\x7d'\x7db$".toList =
        some [.literal ['a', '$'], .placeholder ['\'', '}', '\''], .literal ['b', '$']] ∧
      Template.ReadAs "a$$->\x7b'\x7d'\x7db$".toList
        [.literal ['a', '$'], .placeholder ['\'', '}', '\''], .literal ['b', '$']] ∧
      isInline " $-\x7bx\x7d " = false ∧
      ∀ bindings, expand " $-\x7bx\x7d " bindings = .ok ["$-\x7bx\x7d"] := by
  have hscan : Template.scan "a$$->\x7b'\x7d'\x7db$".toList =
      some [.literal ['a', '$'], .placeholder ['\'', '}', '\''], .literal ['b', '$']] := by
    decide +kernel
  have hplain : isInline " $-\x7bx\x7d " = false := by decide
  have htrim : trim " $-\x7bx\x7d " = "$-\x7bx\x7d" := by decide
  obtain ⟨hread, _, _⟩ := scan_lossless "a$$->\x7b'\x7d'\x7db$"
  obtain ⟨_, _, hexpand⟩ := scan_lossless " $-\x7bx\x7d "
  rw [htrim] at hexpand
  exact ⟨hscan, (hread _).1 hscan, hplain, hexpand hplain⟩

end Sharding.Inline
