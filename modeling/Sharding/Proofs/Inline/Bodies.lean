import Sharding.Inline.Template
import Sharding.Proofs.Inline.Lexical
/-!
# The bodies of placeholders

A body goes up to the first brace that closes none of its own. Braces in the strings of a body do
not count, and its strings are those that its words have.
-/

namespace Sharding.Inline

/-- The characters that can open or close something in a body. -/
def marks : List Char := ['\'', '"', '{', '}']

theorem notMem_marks_iff {c : Char} :
    c ∉ marks ↔ ¬(c = '\'' ∨ c = '"') ∧ c ≠ '{' ∧ c ≠ '}' := by
  simp [marks, and_assoc]

/-- A text that closes all braces that it opens and `depth` more. Those in its strings do not
count. -/
inductive Closes : Nat → List Char → Prop where
  | nil : Closes 0 []
  | plain {depth : Nat} {c : Char} {source : List Char} (hc : c ∉ marks) (h : Closes depth source) :
    Closes depth (c :: source)
  | string {depth : Nat} {quote : Char} {literal content source : List Char}
    (hquote : quote = '\'' ∨ quote = '"') (hliteral : Quoted quote literal content)
    (h : Closes depth source) : Closes depth (quote :: (literal ++ source))
  | opening {depth : Nat} {source : List Char} (h : Closes (depth + 1) source) :
    Closes depth ('{' :: source)
  | closing {depth : Nat} {source : List Char} (h : Closes depth source) :
    Closes (depth + 1) ('}' :: source)

namespace Closes

variable {depth : Nat} {c : Char} {source : List Char}

theorem of_plain (h : Closes depth (c :: source)) (hc : c ∉ marks) : Closes depth source := by
  cases h with
  | plain _ h => exact h
  | string hquote =>
    refine absurd ?_ hc
    rcases hquote with rfl | rfl <;> decide
  | opening => exact absurd (by decide) hc
  | closing => exact absurd (by decide) hc

theorem of_run {run : List Char} (h : Closes depth (run ++ source)) (hrun : ∀ c ∈ run, c ∉ marks) :
    Closes depth source := by
  induction run with
  | nil => exact h
  | cons c run ih =>
    obtain ⟨hc, hrun⟩ := List.forall_mem_cons.1 hrun
    exact ih (h.of_plain hc) hrun

theorem of_quote (h : Closes depth (c :: source)) (hc : c = '\'' ∨ c = '"') :
    ∃ literal content more, source = literal ++ more ∧ Quoted c literal content ∧
      Closes depth more := by
  cases h with
  | plain hplain =>
    refine absurd ?_ hplain
    rcases hc with rfl | rfl <;> decide
  | string _ hliteral h => exact ⟨_, _, _, rfl, hliteral, h⟩
  | opening => exact absurd hc (by decide)
  | closing => exact absurd hc (by decide)

end Closes

namespace Template

theorem body?_cons (depth : Nat) (c : Char) (cs : List Char) :
    body? depth none (c :: cs) =
      if c = '\'' ∨ c = '"' then (c :: ·) <$> body? depth (some c) cs
      else if c = '{' then (c :: ·) <$> body? (depth + 1) none cs
      else if c = '}' then
        match depth with
        | 0 => some []
        | depth + 1 => (c :: ·) <$> body? depth none cs
      else (c :: ·) <$> body? depth none cs := by
  cases depth <;> rw [body?]

/-- What a text closes from where it is in a string, or in none. -/
def ClosesFrom (depth : Nat) : Option Char → List Char → Prop
  | none, source => Closes depth source
  | some quote, source => ∃ literal content more, source = literal ++ more ∧
    Quoted quote literal content ∧ Closes depth more

/-- A body ends where a brace is left over that it does not close itself. -/
theorem closesFrom_of_body? {depth : Nat} {quote : Option Char} {cs body : List Char}
    (h : body? depth quote cs = some body) :
    ClosesFrom depth quote body ∧ ∃ rest, cs = body ++ '}' :: rest := by
  induction depth, quote, cs using body?.induct generalizing body with
  | case1 depth quote => cases h
  | case2 depth quote c cs ih =>
    rw [body?] at h
    obtain ⟨body, hbody, rfl⟩ := Option.map_eq_some_iff.1 h
    obtain ⟨⟨literal, content, more, rfl, hliteral, hmore⟩, rest, rfl⟩ := ih hbody
    exact ⟨⟨_, _, more, rfl, hliteral.hidden c, hmore⟩, rest, rfl⟩
  | case3 depth quote c cs hslash ih =>
    rw [body?.eq_3 _ _ _ _ hslash] at h
    obtain ⟨body, hbody, rfl⟩ := Option.map_eq_some_iff.1 h
    obtain ⟨hfrom, rest, rfl⟩ := ih hbody
    refine ⟨?_, rest, rfl⟩
    by_cases hc : c = quote
    · rw [if_pos hc] at hfrom
      subst hc
      exact ⟨[c], [], body, rfl, .close, hfrom⟩
    · rw [if_neg hc] at hfrom
      obtain ⟨literal, content, more, rfl, hliteral, hmore⟩ := hfrom
      -- a backslash here would be the last character of all
      have hplain : c ≠ '\\' := by
        intro hc
        cases hcs : literal ++ more ++ '}' :: rest with
        | nil => simp at hcs
        | cons d ds => exact hslash d ds hc hcs
      exact ⟨_, _, more, rfl, .plain hplain hc hliteral, hmore⟩
  | case4 depth c cs hquote ih =>
    rw [body?_cons, if_pos hquote] at h
    obtain ⟨body, hbody, rfl⟩ := Option.map_eq_some_iff.1 h
    obtain ⟨⟨literal, content, more, rfl, hliteral, hmore⟩, rest, rfl⟩ := ih hbody
    exact ⟨.string hquote hliteral hmore, rest, rfl⟩
  | case5 depth cs hquote ih =>
    rw [body?_cons, if_neg hquote, if_pos rfl] at h
    obtain ⟨body, hbody, rfl⟩ := Option.map_eq_some_iff.1 h
    obtain ⟨hfrom, rest, rfl⟩ := ih hbody
    exact ⟨.opening hfrom, rest, rfl⟩
  | case6 cs hquote hopen =>
    rw [body?_cons, if_neg hquote, if_neg hopen, if_pos rfl] at h
    cases h
    exact ⟨.nil, cs, rfl⟩
  | case7 cs depth hquote hopen ih =>
    rw [body?_cons, if_neg hquote, if_neg hopen, if_pos rfl] at h
    obtain ⟨body, hbody, rfl⟩ := Option.map_eq_some_iff.1 h
    obtain ⟨hfrom, rest, rfl⟩ := ih hbody
    exact ⟨.closing hfrom, rest, rfl⟩
  | case8 depth c cs hquote hopen hclose ih =>
    rw [body?_cons, if_neg hquote, if_neg hopen, if_neg hclose] at h
    obtain ⟨body, hbody, rfl⟩ := Option.map_eq_some_iff.1 h
    obtain ⟨hfrom, rest, rfl⟩ := ih hbody
    exact ⟨.plain (notMem_marks_iff.2 ⟨hquote, hopen, hclose⟩) hfrom, rest, rfl⟩

theorem body?_quoted {quote : Char} (hquote : quote ≠ '\\') {literal content : List Char}
    (h : Quoted quote literal content) (depth : Nat) (cs : List Char) :
    body? depth (some quote) (literal ++ cs) = (literal ++ ·) <$> body? depth none cs := by
  induction h with
  | close =>
    rw [List.singleton_append, body?.eq_3 _ _ _ _ fun _ _ h => absurd h hquote, if_pos rfl]
    rfl
  | hidden c h ih =>
    rw [List.cons_append, List.cons_append, body?, ih, Option.map_eq_map, Option.map_eq_map,
      Option.map_map]
    rfl
  | plain hslash hne h ih =>
    rw [List.cons_append, body?.eq_3 _ _ _ _ fun _ _ h => absurd h hslash, if_neg hne, ih,
      Option.map_eq_map, Option.map_eq_map, Option.map_map]
    rfl

theorem body?_of_closes {depth : Nat} {body : List Char} (h : Closes depth body)
    (rest : List Char) : body? depth none (body ++ '}' :: rest) = some body := by
  induction h with
  | nil => rfl
  | @plain depth c source hc h ih =>
    obtain ⟨hquote, hopen, hclose⟩ := notMem_marks_iff.1 hc
    rw [List.cons_append, body?_cons, if_neg hquote, if_neg hopen, if_neg hclose, ih]
    rfl
  | @string depth quote literal content source hquote hliteral h ih =>
    have hslash : quote ≠ '\\' := by rcases hquote with rfl | rfl <;> decide
    rw [List.cons_append, body?_cons, if_pos hquote, List.append_assoc,
      body?_quoted hslash hliteral, ih]
    rfl
  | opening h ih =>
    rw [List.cons_append, body?_cons, if_neg (by decide), if_pos rfl, ih]
    rfl
  | closing h ih =>
    rw [List.cons_append, body?_cons, if_neg (by decide), if_neg (by decide), if_pos rfl]
    dsimp only
    rw [ih]
    rfl

/-- The body of a placeholder is what stands before the brace that closes it. -/
theorem body?_eq_some_iff {depth : Nat} {cs body : List Char} :
    body? depth none cs = some body ↔ Closes depth body ∧ ∃ rest, cs = body ++ '}' :: rest := by
  constructor
  · exact closesFrom_of_body?
  · rintro ⟨hbody, rest, rfl⟩
    exact body?_of_closes hbody rest

end Template

end Sharding.Inline
