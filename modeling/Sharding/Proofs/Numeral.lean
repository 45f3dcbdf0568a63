import Sharding.Proofs.Text
import Sharding.Text.Numeral
/-!
# Numerals

Which integers fit in 64 bits, that every integer reads back from its numeral, and which numeral
that is.
-/

namespace Sharding.Text

namespace Numeral

theorem fit_eq_some_iff {n : Int} {w : Int64} : fit n = some w ↔ w.toInt = n := by
  constructor
  · exact toInt_of_fit
  · rintro rfl
    exact fit_toInt w

theorem exists_fit_iff {n : Int} :
    (∃ w, fit n = some w) ↔ Int64.minValue.toInt ≤ n ∧ n ≤ Int64.maxValue.toInt := by
  constructor
  · rintro ⟨w, hw⟩
    rw [← toInt_of_fit hw]
    exact ⟨w.minValue_le_toInt, w.toInt_le⟩
  · intro hbounds
    exact ⟨Int64.ofInt n, if_pos hbounds⟩

/-! ## Printed numerals -/

theorem isDigit_of_mem_digits {n : Nat} {c : Char} (h : c ∈ Nat.toDigits 10 n) : c.isDigit :=
  Nat.isDigit_of_mem_toDigits (by decide) (by decide) h

theorem magnitude_digits (n : Nat) : magnitude (Nat.toDigits 10 n) = some n := by
  have hdigits : (Nat.toDigits 10 n).all Char.isDigit :=
    List.all_eq_true.2 fun _ => isDigit_of_mem_digits
  rw [magnitude, if_pos ⟨Nat.toDigits_ne_nil, hdigits⟩,
    Nat.ofDigitChars_toDigits (by decide) (by decide)]

/-- Digits do not begin with a sign. -/
theorem signed_digits (n : Nat) : signed (Nat.toDigits 10 n) = some (n : Int) := by
  have hfirst {c : Char} {rest : List Char} (h : Nat.toDigits 10 n = c :: rest) : c.isDigit :=
    isDigit_of_mem_digits (h ▸ List.mem_cons_self)
  unfold signed
  split
  · next h => exact absurd (hfirst h) (by decide)
  · next h => exact absurd (hfirst h) (by decide)
  · rw [magnitude_digits]
    rfl

theorem toList_print (n : Int64) : (print n).toList =
    if 0 ≤ n.toInt then Nat.toDigits 10 n.toInt.toNat
    else '-' :: Nat.toDigits 10 (-n.toInt).toNat := by
  rw [print, Int.toString_eq_repr, Int.repr_eq_if]
  split
  · exact Nat.toList_repr
  · rw [String.toList_append, Nat.toList_repr]
    rfl

theorem parse?_print (n : Int64) : parse? (print n) = some n := by
  have hsigned : signed (print n).toList = some n.toInt := by
    rw [toList_print]
    split
    · next h => rw [signed_digits, Int.toNat_of_nonneg h]
    · next h =>
      have hopposite : -((-n.toInt).toNat : Int) = n.toInt := by omega
      rw [signed, magnitude_digits]
      exact congrArg some hopposite
  rw [parse?, hsigned, Option.bind_some, fit_toInt]

theorem isSpace_of_mem_print {n : Int64} {c : Char} (h : c ∈ (print n).toList) :
    isSpace c = false := by
  rw [toList_print] at h
  split at h
  · exact isSpace_of_isDigit (isDigit_of_mem_digits h)
  · rcases List.mem_cons.1 h with rfl | h
    · decide
    · exact isSpace_of_isDigit (isDigit_of_mem_digits h)

theorem content?_print (n : Int64) : content? (print n) = some (print n) := by
  apply content?_eq_self (trim_eq_self fun _ => isSpace_of_mem_print)
  intro hblank
  have hne : (print n).toList ≠ [] := by
    rw [toList_print]
    split
    · exact Nat.toDigits_ne_nil
    · exact List.cons_ne_nil _ _
  obtain ⟨first, rest, hfirst⟩ := List.exists_cons_of_ne_nil hne
  have hmem : first ∈ (print n).toList := hfirst ▸ List.mem_cons_self
  have hspace := List.all_eq_true.1 hblank first hmem
  rw [isSpace_of_mem_print hmem] at hspace
  cases hspace

/-! ## Numerals by their digits -/

/-- The decimal digits of a number, with no zero before others. -/
structure AreDigitsOf (n : Nat) (digits : List Char) : Prop where
  isDigit : ∀ c ∈ digits, c.isDigit
  value : Nat.ofDigitChars 10 digits 0 = n
  ne_nil : digits ≠ []
  shortest : digits.head? = some '0' → digits = ['0']

/-- The decimal numeral of an integer: its digits, after a sign only below zero. -/
inductive IsNumeral : Int → List Char → Prop where
  | natural {n : Nat} {digits : List Char} (h : AreDigitsOf n digits) : IsNumeral n digits
  | negative {n : Nat} {digits : List Char} (hpos : 0 < n) (h : AreDigitsOf n digits) :
    IsNumeral (-n) ('-' :: digits)

theorem digitChar_of_isDigit {c : Char} (h : c.isDigit) :
    c.toNat - '0'.toNat < 10 ∧ (c.toNat - '0'.toNat).digitChar = c := by
  obtain ⟨hlow, hhigh⟩ := isDigit_iff.1 h
  have hlt : c.toNat - '0'.toNat < 10 := by
    show c.toNat - 48 < 10
    omega
  refine ⟨hlt, Char.toNat_inj.1 ?_⟩
  rw [Nat.toNat_digitChar_of_lt_ten hlt]
  show 48 + (c.toNat - 48) = c.toNat
  omega

/-- Digits after those of a positive number are the last ones of what they make together. -/
theorem toDigits_ofDigitChars {cs : List Char} (h : ∀ c ∈ cs, c.isDigit) {n : Nat} (hpos : 0 < n) :
    Nat.toDigits 10 (Nat.ofDigitChars 10 cs n) = Nat.toDigits 10 n ++ cs := by
  induction cs generalizing n with
  | nil => rw [Nat.ofDigitChars_nil, List.append_nil]
  | cons c cs ih =>
    obtain ⟨hc, hcs⟩ := List.forall_mem_cons.1 h
    obtain ⟨hlt, hchar⟩ := digitChar_of_isDigit hc
    calc Nat.toDigits 10 (Nat.ofDigitChars 10 (c :: cs) n)
        = Nat.toDigits 10 (10 * n + (c.toNat - '0'.toNat)) ++ cs := by
          rw [Nat.ofDigitChars_cons, ih hcs (by omega)]
      _ = Nat.toDigits 10 n ++ Nat.toDigits 10 (c.toNat - '0'.toNat) ++ cs := by
          rw [Nat.toDigits_append_toDigits (by decide) hpos hlt]
      _ = Nat.toDigits 10 n ++ c :: cs := by
          rw [Nat.toDigits_of_lt_base hlt, hchar, List.append_assoc, List.singleton_append]

theorem eq_zero_of_head_digits {n : Nat} (h : (Nat.toDigits 10 n).head? = some '0') : n = 0 := by
  induction n using Nat.strongRecOn with
  | ind n ih =>
    rw [Nat.toDigits_eq_if (by decide)] at h
    split at h
    · exact Nat.digitChar_eq_zero.1 (Option.some.inj h)
    · next hlarge =>
      rw [List.head?_append_of_ne_nil _ Nat.toDigits_ne_nil] at h
      have hzero := ih (n / 10) (by omega) h
      omega

theorem areDigitsOf_iff {n : Nat} {digits : List Char} :
    AreDigitsOf n digits ↔ Nat.toDigits 10 n = digits := by
  constructor
  · rintro ⟨hdigits, rfl, hne, hshortest⟩
    cases digits with
    | nil => exact absurd rfl hne
    | cons c cs =>
      obtain ⟨hc, hcs⟩ := List.forall_mem_cons.1 hdigits
      obtain ⟨hlt, hchar⟩ := digitChar_of_isDigit hc
      by_cases hzero : c = '0'
      · subst hzero
        cases hshortest rfl
        rfl
      · have hpos : 0 < c.toNat - '0'.toNat := by
          rw [Nat.pos_iff_ne_zero, ne_eq, ← Nat.digitChar_eq_zero, hchar]
          exact hzero
        rw [Nat.ofDigitChars_cons, Nat.mul_zero, Nat.zero_add, toDigits_ofDigitChars hcs hpos,
          Nat.toDigits_of_lt_base hlt, hchar, List.singleton_append]
  · rintro rfl
    refine ⟨fun _ => isDigit_of_mem_digits, Nat.ofDigitChars_ten_toDigits, Nat.toDigits_ne_nil, ?_⟩
    intro hhead
    rw [eq_zero_of_head_digits hhead]
    rfl

/-- Every integer is printed as its numeral and as nothing else. -/
theorem isNumeral_iff {n : Int64} {s : String} : IsNumeral n.toInt s.toList ↔ print n = s := by
  rw [← String.toList_inj, toList_print]
  generalize n.toInt = n, s.toList = cs
  constructor
  · rintro (@⟨n, digits, h⟩ | @⟨n, digits, hpos, h⟩)
    · rw [if_pos (Int.natCast_nonneg n), Int.toNat_natCast, areDigitsOf_iff.1 h]
    · rw [if_neg (by omega), Int.neg_neg, Int.toNat_natCast, areDigitsOf_iff.1 h]
  · intro h
    rw [← h]
    split
    · next hnonneg =>
      have hnumeral := IsNumeral.natural (areDigitsOf_iff.2 (Eq.refl (Nat.toDigits 10 n.toNat)))
      rwa [Int.toNat_of_nonneg hnonneg] at hnumeral
    · next hneg =>
      have hnumeral := IsNumeral.negative (n := (-n).toNat) (by omega) (areDigitsOf_iff.2 rfl)
      rwa [Int.toNat_of_nonneg (by omega), Int.neg_neg] at hnumeral

end Numeral

end Sharding.Text
