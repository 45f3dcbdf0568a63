import Mathlib.Data.List.TakeWhile
import Sharding.Inline.Token.Reader
import Sharding.Proofs.Inline.Arithmetic
import Sharding.Proofs.Outcome
import Sharding.Proofs.Text
/-!
# The words of placeholder bodies

A body is a row of words with space between them. Integers and names are as long as they can be, and
a string ends at the first of its quotes that no backslash hides.
-/

namespace Sharding.Inline

open Outcome Text

/-- The characters of `run` have the property, and the one after them has not. -/
structure Longest (p : Char → Bool) (run rest : List Char) : Prop where
  all : ∀ c ∈ run, p c
  ends : ∀ c ∈ rest.head?, p c = false

theorem Longest.takeWhile_append {p : Char → Bool} {run rest : List Char} (h : Longest p run rest) :
    (run ++ rest).takeWhile p = run := by
  rw [List.takeWhile_append_of_pos h.all]
  cases rest with
  | nil => rw [List.takeWhile_nil, List.append_nil]
  | cons c rest => rw [List.takeWhile_cons_of_neg (by simp [h.ends c rfl]), List.append_nil]

theorem exists_longest (p : Char → Bool) (cs : List Char) :
    ∃ run rest, cs = run ++ rest ∧ Longest p run rest := by
  induction cs with
  | nil => exact ⟨[], [], rfl, ⟨by simp, by simp⟩⟩
  | cons c cs ih =>
    by_cases hc : p c
    · obtain ⟨run, rest, rfl, hrun⟩ := ih
      exact ⟨c :: run, rest, rfl, ⟨List.forall_mem_cons.2 ⟨hc, hrun.all⟩, hrun.ends⟩⟩
    · exact ⟨[], c :: cs, rfl, ⟨by simp, by simpa using hc⟩⟩

/-- The rest of a string after its opening quote and the content of the string. -/
inductive Quoted (quote : Char) : List Char → List Char → Prop where
  | close : Quoted quote [quote] []
  | hidden (c : Char) {source content : List Char} (h : Quoted quote source content) :
    Quoted quote ('\\' :: c :: source) (c :: content)
  | plain {c : Char} {source content : List Char} (hslash : c ≠ '\\') (hquote : c ≠ quote)
    (h : Quoted quote source content) : Quoted quote (c :: source) (c :: content)

/-- The words that a text consists of. -/
inductive Lexes : List Char → List Token → Prop where
  | nil : Lexes [] []
  | space {c : Char} {source : List Char} {ts : List Token} (hc : isSpace c)
    (h : Lexes source ts) : Lexes (c :: source) ts
  | int {n : Int64} {first : Char} {digits source : List Char} {ts : List Token}
    (hfirst : first.isDigit) (hdigits : Longest Char.isDigit digits source)
    (hn : n.toInt = Nat.ofDigitChars 10 (first :: digits) 0) (h : Lexes source ts) :
    Lexes (first :: (digits ++ source)) (.int n :: ts)
  | word {first : Char} {more source : List Char} {ts : List Token}
    (hfirst : Token.startsWord first)
    (hmore : Longest Token.continuesWord more source) (h : Lexes source ts) :
    Lexes (first :: (more ++ source)) (.word (String.ofList (first :: more)) :: ts)
  | text {quote : Char} {literal content source : List Char} {ts : List Token}
    (hquote : quote = '\'' ∨ quote = '"') (hliteral : Quoted quote literal content)
    (h : Lexes source ts) :
    Lexes (quote :: (literal ++ source)) (.text (String.ofList content) :: ts)
  | dots {source : List Char} {ts : List Token} (h : Lexes source ts) :
    Lexes ('.' :: '.' :: source) (.dots :: ts)
  | symbol {c : Char} {token : Token} {source : List Char} {ts : List Token}
    (hc : Token.ofSymbol? c = some token) (h : Lexes source ts) : Lexes (c :: source) (token :: ts)

namespace Token

theorem isSpace_of_startsWord {c : Char} (h : startsWord c) : isSpace c = false := by
  rw [startsWord, Bool.or_eq_true, beq_iff_eq] at h
  rcases h with h | rfl
  · rw [isAlphabetic] at h
    split at h
    · exact isSpace_of_isAlpha h
    · exact alphabetic_apart_spaces.within_eq_false h
  · decide

theorem isDigit_of_startsWord {c : Char} (h : startsWord c) : c.isDigit = false := by
  rw [startsWord, Bool.or_eq_true, beq_iff_eq] at h
  rw [Bool.eq_false_iff]
  intro hdigit
  have hdigits := isDigit_iff.1 hdigit
  rcases h with h | rfl
  · rw [isAlphabetic, if_pos (by omega)] at h
    have hletters := isAlpha_iff.1 h
    omega
  · revert hdigits
    decide

theorem stringContent?_append {quote : Char} (hquote : quote ≠ '\\') {literal content : List Char}
    (h : Quoted quote literal content) (rest : List Char) :
    stringContent? quote (literal ++ rest) = some (content, literal.length) := by
  induction h with
  | close =>
    rw [List.singleton_append, stringContent?, if_pos rfl]
    · rfl
    · exact fun h _ => hquote h
    · exact fun _ _ h _ => hquote h
  | hidden c h ih =>
    rw [List.cons_append, List.cons_append, stringContent?, ih]
    rfl
  | plain hslash hne h ih =>
    rw [List.cons_append, stringContent?, if_neg hne, ih]
    · rfl
    · exact fun h _ => hslash h
    · exact fun _ _ h _ => hslash h

theorem ofDigits_eq_ok_iff {first : Char} {digits : List Char} {token : Token}
    (hfirst : first.isDigit) (hdigits : ∀ c ∈ digits, c.isDigit) :
    ofDigits (first :: digits) = .ok token ↔
      ∃ n : Int64, n.toInt = Nat.ofDigitChars 10 (first :: digits) 0 ∧ token = .int n := by
  have hall : (first :: digits).all Char.isDigit := by
    rw [List.all_cons, hfirst, Bool.true_and, List.all_eq_true]
    exact hdigits
  have hmagnitude : Numeral.magnitude (first :: digits) =
      some (Nat.ofDigitChars 10 (first :: digits) 0) :=
    if_pos ⟨List.cons_ne_nil _ _, hall⟩
  simp only [ofDigits, hmagnitude, Option.bind_some, ← Numeral.fit_eq_some_iff]
  cases Numeral.fit _ with
  | none => simp only [reduceCtorEq, false_and, exists_false]
  | some n =>
    simp only [Except.ok.injEq, Option.some.injEq, exists_eq_left']
    exact eq_comm

/-- Nothing that begins a word in itself begins one of the others, or two dots. -/
theorem ofSymbol?_eq_some {c : Char} {token : Token} (h : ofSymbol? c = some token) :
    c ≠ '.' ∧ isSpace c = false ∧ c.isDigit = false ∧ startsWord c = false ∧
      ¬(c = '\'' ∨ c = '"') := by
  unfold ofSymbol? at h
  split at h
  case h_11 => cases h
  all_goals decide

theorem readAll_space {c : Char} (hc : isSpace c) (source : List Char) :
    readAll (c :: source) = readAll source := by
  have hdots : ∀ rest, c = '.' → source = '.' :: rest → False := by
    rintro rest rfl
    exact absurd hc (by decide)
  rw [readAll.eq_3 _ _ hdots, if_pos hc]

theorem readAll_digits {first : Char} {digits source : List Char} (hfirst : first.isDigit)
    (hdigits : Longest Char.isDigit digits source) :
    readAll (first :: (digits ++ source)) =
      (do (· :: ·) (← ofDigits (first :: digits)) <$> readAll source) := by
  have hdots : ∀ rest, first = '.' → digits ++ source = '.' :: rest → False := by
    rintro rest rfl
    exact absurd hfirst (by decide)
  rw [readAll.eq_3 _ _ hdots, if_neg (by simp [isSpace_of_isDigit hfirst]), if_pos hfirst,
    hdigits.takeWhile_append, List.drop_left]

theorem readAll_word {first : Char} {more source : List Char} (hfirst : startsWord first)
    (hmore : Longest continuesWord more source) :
    readAll (first :: (more ++ source)) =
      (word (String.ofList (first :: more)) :: ·) <$> readAll source := by
  have hdots : ∀ rest, first = '.' → more ++ source = '.' :: rest → False := by
    rintro rest rfl
    exact absurd hfirst (by decide)
  rw [readAll.eq_3 _ _ hdots, if_neg (by simp [isSpace_of_startsWord hfirst]),
    if_neg (by simp [isDigit_of_startsWord hfirst]), if_pos hfirst, hmore.takeWhile_append,
    List.drop_left]

theorem readAll_text {quote : Char} {literal content : List Char}
    (hquote : quote = '\'' ∨ quote = '"') (hliteral : Quoted quote literal content)
    (source : List Char) :
    readAll (quote :: (literal ++ source)) =
      (text (String.ofList content) :: ·) <$> readAll source := by
  have hplain : quote ≠ '.' ∧ quote ≠ '\\' ∧ isSpace quote = false ∧ quote.isDigit = false ∧
      startsWord quote = false := by
    rcases hquote with rfl | rfl <;> decide
  obtain ⟨hdot, hslash, hspace, hdigit, hword⟩ := hplain
  rw [readAll.eq_3 _ _ fun _ h _ => hdot h, if_neg (by simp [hspace]), if_neg (by simp [hdigit]),
    if_neg (by simp [hword]), if_pos hquote, stringContent?_append hslash hliteral]
  simp only [List.drop_left]

theorem readAll_symbol {c : Char} {token : Token} (hc : ofSymbol? c = some token)
    (source : List Char) : readAll (c :: source) = (token :: ·) <$> readAll source := by
  obtain ⟨hdot, hspace, hdigit, hword, hquote⟩ := ofSymbol?_eq_some hc
  rw [readAll.eq_3 _ _ fun _ h _ => hdot h, if_neg (by simp [hspace]), if_neg (by simp [hdigit]),
    if_neg (by simp [hword]), if_neg hquote, hc]

theorem readAll_of_lexes {cs : List Char} {ts : List Token} (h : Lexes cs ts) :
    readAll cs = .ok ts := by
  induction h with
  | nil => rw [readAll]
  | space hc h ih => rw [readAll_space hc, ih]
  | int hfirst hdigits hn h ih =>
    rw [readAll_digits hfirst hdigits, (ofDigits_eq_ok_iff hfirst hdigits.all).2 ⟨_, hn, rfl⟩, ih]
    rfl
  | word hfirst hmore h ih =>
    rw [readAll_word hfirst hmore, ih]
    rfl
  | text hquote hliteral h ih =>
    rw [readAll_text hquote hliteral, ih]
    rfl
  | dots h ih =>
    rw [readAll, ih]
    rfl
  | symbol hc h ih =>
    rw [readAll_symbol hc, ih]
    rfl

end Token

end Sharding.Inline
