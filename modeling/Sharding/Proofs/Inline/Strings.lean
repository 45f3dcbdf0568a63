import Sharding.Proofs.Inline.Scanning
/-!
# The strings of placeholders

Where a placeholder ends and which words it has are found apart from each other. Both see the same
strings in it: the brace that ends it is in none of them.
-/

namespace Sharding.Inline

open Outcome Text

theorem Longest.append_cons {p : Char → Bool} {run rest : List Char} (h : Longest p run rest)
    {d : Char} (hd : p d = false) (more : List Char) : Longest p run (rest ++ d :: more) := by
  refine ⟨h.all, fun c hc => ?_⟩
  cases rest with
  | nil =>
    cases hc
    exact hd
  | cons c rest => exact h.ends _ hc

namespace Token

/-- Nothing that can open or close something is in a word, but for the quotes of a string. -/
theorem of_mem_marks : ∀ c ∈ marks, isSpace c = false ∧ c.isDigit = false ∧
    startsWord c = false ∧ continuesWord c = false ∧ ofSymbol? c = none := by
  intro c hc
  simp only [marks, List.mem_cons, List.not_mem_nil, or_false] at hc
  rcases hc with rfl | rfl | rfl | rfl <;> decide

/-- Reading a text comes to the brace after it, or ends before it by another problem than a string
that does not end. -/
structure ReadsUpToBrace (source rest : List Char) : Prop where
  terminated : readAll source ≠ .error .unterminatedString
  reached : readAll (source ++ '}' :: rest) =
    (do
      let _ ← readAll source
      .error (.unexpectedCharacter '}'))

namespace ReadsUpToBrace

variable {source more rest : List Char}

/-- Another problem is met in the text itself. -/
theorem of_problem {problem : Problem} (hproblem : problem ≠ .unterminatedString)
    (hsource : readAll source = .error problem)
    (hlong : readAll (source ++ '}' :: rest) = .error problem) : ReadsUpToBrace source rest := by
  refine ⟨?_, ?_⟩
  · rw [hsource]
    exact fun h => hproblem (Except.error.inj h)
  · rw [hlong, hsource]
    rfl

/-- Words before a text do not matter. -/
theorem of_words {f : List Token → List Token} (h : ReadsUpToBrace more rest)
    (hsource : readAll source = f <$> readAll more)
    (hlong : readAll (source ++ '}' :: rest) = f <$> readAll (more ++ '}' :: rest)) :
    ReadsUpToBrace source rest := by
  refine ⟨?_, ?_⟩
  · rw [hsource]
    intro herror
    exact h.terminated (map_eq_error.1 herror)
  · rw [hlong, h.reached, hsource]
    cases readAll more <;> rfl

end ReadsUpToBrace

theorem ofDigits_ne_unterminatedString (digits : List Char) :
    ofDigits digits ≠ .error .unterminatedString := by
  unfold ofDigits
  split <;> simp

theorem readAll_unexpected {c : Char} {source : List Char}
    (hdots : ∀ more, c = '.' → source = '.' :: more → False) (hspace : ¬isSpace c)
    (hdigit : ¬c.isDigit) (hword : ¬startsWord c) (hquote : ¬(c = '\'' ∨ c = '"'))
    (hsymbol : ofSymbol? c = none) : readAll (c :: source) = .error (.unexpectedCharacter c) := by
  rw [readAll.eq_3 _ _ hdots, if_neg hspace, if_neg hdigit, if_neg hword, if_neg hquote, hsymbol]

/-- The words of a body keep to the strings that its end was found by. -/
theorem readsUpToBrace_of_closes {depth : Nat} {source : List Char} (h : Closes depth source)
    (rest : List Char) : ReadsUpToBrace source rest := by
  induction source using readAll.induct generalizing depth with
  | case1 =>
    have hbrace : readAll ('}' :: rest) = .error (.unexpectedCharacter '}') :=
      readAll_unexpected (fun _ h => absurd h (by decide)) (by decide) (by decide) (by decide)
        (by decide) rfl
    refine ⟨by simp [readAll], ?_⟩
    rw [List.nil_append, hbrace, readAll]
    rfl
  | case2 source ih =>
    have hmore := (h.of_plain (by decide)).of_plain (by decide)
    refine (ih hmore).of_words (f := (dots :: ·)) (by rw [readAll]) ?_
    rw [List.cons_append, List.cons_append, readAll]
  | case3 c source hdots hspace ih =>
    have hplain : c ∉ marks := fun hc => by simp [of_mem_marks c hc] at hspace
    refine (ih (h.of_plain hplain)).of_words (f := id) ?_ ?_
    · rw [readAll_space hspace, id_map]
    · rw [List.cons_append, readAll_space hspace, id_map]
  | case4 c source hdots hspace hdigit ih =>
    have hplain {c : Char} (hdigit : c.isDigit) : c ∉ marks := fun hc => by
      simp [of_mem_marks c hc] at hdigit
    obtain ⟨run, more, rfl, hrun⟩ := exists_longest Char.isDigit source
    rw [hrun.takeWhile_append, List.drop_left] at ih
    have hmore := (h.of_plain (hplain hdigit)).of_run fun c hc => hplain (hrun.all c hc)
    have hlong := hrun.append_cons (d := '}') rfl rest
    cases htoken : ofDigits (c :: run) with
    | ok token =>
      refine (ih hmore).of_words (f := (token :: ·)) ?_ ?_
      · rw [readAll_digits hdigit hrun, htoken]
        rfl
      · rw [List.cons_append, List.append_assoc, readAll_digits hdigit hlong, htoken]
        rfl
    | error problem =>
      have hproblem : problem ≠ .unterminatedString := by
        rintro rfl
        exact ofDigits_ne_unterminatedString _ htoken
      refine .of_problem hproblem ?_ ?_
      · rw [readAll_digits hdigit hrun, htoken]
        rfl
      · rw [List.cons_append, List.append_assoc, readAll_digits hdigit hlong, htoken]
        rfl
  | case5 c source hdots hspace hdigit hword ih =>
    have hfirst : c ∉ marks := fun hc => by simp [of_mem_marks c hc] at hword
    obtain ⟨run, more, rfl, hrun⟩ := exists_longest continuesWord source
    rw [hrun.takeWhile_append, List.drop_left] at ih
    have hplain : ∀ c ∈ run, c ∉ marks := by
      intro c hmem hc
      have hcontinues := hrun.all c hmem
      simp [of_mem_marks c hc] at hcontinues
    have hmore := (h.of_plain hfirst).of_run hplain
    have hlong := hrun.append_cons (d := '}') (by decide) rest
    refine (ih hmore).of_words (readAll_word hword hrun) ?_
    rw [List.cons_append, List.append_assoc, readAll_word hword hlong]
  | case6 c source hdots hspace hdigit hword hquote hnone =>
    -- the string that the end of the body was found by is the one that is read
    obtain ⟨literal, content, more, rfl, hliteral, _⟩ := h.of_quote hquote
    have hslash : c ≠ '\\' := by rcases hquote with rfl | rfl <;> decide
    rw [stringContent?_append hslash hliteral] at hnone
    cases hnone
  | case7 c source hdots hspace hdigit hword hquote content size hcontent ih =>
    obtain ⟨literal, content, more, rfl, hliteral, hmore⟩ := h.of_quote hquote
    have hslash : c ≠ '\\' := by rcases hquote with rfl | rfl <;> decide
    rw [stringContent?_append hslash hliteral] at hcontent
    cases hcontent
    rw [List.drop_left] at ih
    refine (ih hmore).of_words (readAll_text hquote hliteral more) ?_
    rw [List.cons_append, List.append_assoc, readAll_text hquote hliteral]
  | case8 c source hdots hspace hdigit hword hquote token htoken ih =>
    have hplain : c ∉ marks := fun hc => by simp [of_mem_marks c hc] at htoken
    refine (ih (h.of_plain hplain)).of_words (readAll_symbol htoken source) ?_
    rw [List.cons_append, readAll_symbol htoken]
  | case9 c source hdots hspace hdigit hword hquote hsymbol =>
    have hdots' : ∀ more, c = '.' → source ++ '}' :: rest = '.' :: more → False := by
      intro more hc heq
      cases source with
      | nil => exact absurd (List.cons.inj heq).1 (by decide)
      | cons d ds => exact hdots ds hc (by rw [(List.cons.inj heq).1])
    have hproblem : Problem.unexpectedCharacter c ≠ .unterminatedString := by simp
    refine .of_problem hproblem ?_ ?_
    · exact readAll_unexpected hdots hspace hdigit hword hquote hsymbol
    · exact readAll_unexpected hdots' hspace hdigit hword hquote hsymbol

end Token

/-- The body of a placeholder holds its strings as a whole: none is without its end in the body, and
words that are read beyond it meet the brace that ends it by itself. -/
theorem placeholder_strings {template : String} {segments : List Segment}
    (h : Template.scan template.toList = some segments) {body : List Char}
    (hbody : .placeholder body ∈ segments) :
    Token.readAll body ≠ .error .unterminatedString ∧
      ∀ rest, Token.readAll (body ++ '}' :: rest) = (do
        let _ ← Token.readAll body
        .error (.unexpectedCharacter '}')) := by
  have hcloses : Closes 0 body := (Template.scan_eq_some_iff.1 h).proper _ hbody
  exact ⟨(Token.readsUpToBrace_of_closes hcloses []).terminated,
    fun rest => (Token.readsUpToBrace_of_closes hcloses rest).reached⟩

/-- A hidden quote and braces in the strings of a body. -/
def quotedBraces : List Char :=
  ['\'', '\\', '\'', '}', '\'', '+', '"', '{', '\'', '"']

theorem placeholder_strings_quotedBraces :
    Template.scan (['$', '{'] ++ quotedBraces ++ ['}']) = some [.placeholder quotedBraces] ∧
      Token.readAll quotedBraces = .ok [.text "'\x7d", .plus, .text "\x7b'"] ∧
      ∀ rest, Token.readAll (quotedBraces ++ '}' :: rest) = .error (.unexpectedCharacter '}') := by
  have hscan : Template.scan (['$', '{'] ++ quotedBraces ++ ['}']) =
      some [.placeholder quotedBraces] := by
    decide +kernel
  have hfirst : Quoted '\'' ['\\', '\'', '}', '\''] ['\'', '}'] :=
    .hidden _ (.plain (by decide) (by decide) .close)
  have hsecond : Quoted '"' ['{', '\'', '"'] ['{', '\''] :=
    .plain (by decide) (by decide) (.plain (by decide) (by decide) .close)
  have hread : Token.readAll quotedBraces = .ok [.text "'\x7d", .plus, .text "\x7b'"] :=
    Token.readAll_of_lexes (.text (.inl rfl) hfirst (.symbol rfl (.text (.inr rfl) hsecond .nil)))
  have htemplate : Template.scan (String.ofList (['$', '{'] ++ quotedBraces ++ ['}'])).toList =
      some [.placeholder quotedBraces] := by
    rw [String.toList_ofList, hscan]
  obtain ⟨_, hreached⟩ := placeholder_strings htemplate List.mem_cons_self
  refine ⟨hscan, hread, fun rest => ?_⟩
  rw [hreached rest, hread]
  rfl

end Sharding.Inline
