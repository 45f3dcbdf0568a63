import Sharding.Interval
import Sharding.Proofs.Outcome
/-!
# The integers of an interval

An interval admits the integers that its bounds leave, read as numbers. They are exactly the
integers from the first to the last one that `Interval.integers` finds.
-/

namespace Sharding.Interval

open Outcome

/-- The integer satisfies a lower bound. A bound that is no number rules nothing out. -/
def IsAbove : Bound → Int64 → Prop
  | .unbounded, _ => True
  | .included v, n => ∀ m, v.number? = some m → m ≤ n
  | .excluded v, n => ∀ m, v.number? = some m → m < n

/-- The integer satisfies an upper bound. A bound that is no number rules nothing out. -/
def IsBelow : Bound → Int64 → Prop
  | .unbounded, _ => True
  | .included v, n => ∀ m, v.number? = some m → n ≤ m
  | .excluded v, n => ∀ m, v.number? = some m → n < m

/-- The integer satisfies both bounds. -/
def Admits (interval : Interval) (n : Int64) : Prop :=
  IsAbove interval.lower n ∧ IsBelow interval.upper n

theorem numberOf_eq_ok {v : Value} {n : Int64} : numberOf v = .ok n ↔ v.number? = some n := by
  unfold numberOf
  cases v.number? with
  | none => exact ⟨fun h => (nomatch h), fun h => (nomatch h)⟩
  | some m =>
    exact ⟨fun h => congrArg some (Except.ok.inj h), fun h => congrArg _ (Option.some.inj h)⟩

theorem fit_eq_none {n : Int} (h : Text.Numeral.fit n = none) :
    n < Int64.minValue.toInt ∨ Int64.maxValue.toInt < n := by
  unfold Text.Numeral.fit at h
  split at h
  · cases h
  · omega

/-- What a lower bound leaves: nothing, or all from its least integer on. -/
theorem isAbove_iff {bound : Bound} {found : Option Int64} (h : least bound = .ok found)
    (n : Int64) : IsAbove bound n ↔ ∃ low, found = some low ∧ low ≤ n := by
  cases bound with
  | unbounded =>
    cases h
    simp [IsAbove, Int64.minValue_le]
  | included v =>
    obtain ⟨m, hm, rfl⟩ := map_eq_ok.1 h
    simp [IsAbove, numberOf_eq_ok.1 hm]
  | excluded v =>
    obtain ⟨m, hm, rfl⟩ := map_eq_ok.1 h
    have habove : IsAbove (.excluded v) n ↔ m.toInt < n.toInt := by
      simp [IsAbove, numberOf_eq_ok.1 hm, Int64.lt_iff_toInt_lt]
    rw [habove]
    cases hfit : Text.Numeral.fit (m.toInt + 1) with
    | none =>
      have hmin := m.minValue_le_toInt
      have hmax := n.toInt_le
      have hout := fit_eq_none hfit
      simp only [reduceCtorEq, false_and, exists_false, iff_false]
      omega
    | some low =>
      have hlow := Text.Numeral.toInt_of_fit hfit
      simp only [Option.some.injEq, exists_eq_left', Int64.le_iff_toInt_le]
      omega

/-- What an upper bound leaves: nothing, or all up to its greatest integer. -/
theorem isBelow_iff {bound : Bound} {found : Option Int64} (h : greatest bound = .ok found)
    (n : Int64) : IsBelow bound n ↔ ∃ high, found = some high ∧ n ≤ high := by
  cases bound with
  | unbounded =>
    cases h
    simp [IsBelow, Int64.le_maxValue]
  | included v =>
    obtain ⟨m, hm, rfl⟩ := map_eq_ok.1 h
    simp [IsBelow, numberOf_eq_ok.1 hm]
  | excluded v =>
    obtain ⟨m, hm, rfl⟩ := map_eq_ok.1 h
    have hbelow : IsBelow (.excluded v) n ↔ n.toInt < m.toInt := by
      simp [IsBelow, numberOf_eq_ok.1 hm, Int64.lt_iff_toInt_lt]
    rw [hbelow]
    cases hfit : Text.Numeral.fit (m.toInt - 1) with
    | none =>
      have hmin := n.minValue_le_toInt
      have hmax := m.toInt_le
      have hout := fit_eq_none hfit
      simp only [reduceCtorEq, false_and, exists_false, iff_false]
      omega
    | some high =>
      have hhigh := Text.Numeral.toInt_of_fit hfit
      simp only [Option.some.injEq, exists_eq_left', Int64.le_iff_toInt_le]
      omega

theorem admits_iff {interval : Interval} {found : Option (Int64 × Int64)}
    (h : interval.integers = .ok found) (n : Int64) :
    interval.Admits n ↔ ∃ low high, found = some (low, high) ∧ low ≤ n ∧ n ≤ high := by
  obtain ⟨lowest, hlowest, h⟩ := bind_eq_ok.1 h
  unfold Admits
  rw [isAbove_iff hlowest]
  cases lowest with
  | none =>
    cases h
    simp
  | some low =>
    obtain ⟨highest, hhighest, h⟩ := bind_eq_ok.1 h
    rw [isBelow_iff hhighest]
    cases highest with
    | none =>
      cases h
      simp
    | some high =>
      cases h
      by_cases hle : low ≤ high
      · rw [if_pos hle]
        simp
      · rw [if_neg hle]
        simp only [Option.some.injEq, exists_eq_left', reduceCtorEq, false_and, exists_false,
          iff_false, not_and, Int64.not_le]
        intro hlow
        exact Int64.lt_of_lt_of_le (Int64.not_le.1 hle) hlow

/-! ## Numeric bounds -/

/-- The bound, if there is one, is a number. -/
def IsNumericBound : Bound → Prop
  | .unbounded => True
  | .included v | .excluded v => v.number?.isSome

def IsNumeric (interval : Interval) : Prop :=
  IsNumericBound interval.lower ∧ IsNumericBound interval.upper

theorem exists_numberOf {v : Value} (h : v.number?.isSome) : ∃ n, numberOf v = .ok n := by
  obtain ⟨n, hn⟩ := Option.isSome_iff_exists.1 h
  exact ⟨n, numberOf_eq_ok.2 hn⟩

theorem exists_least {bound : Bound} (h : IsNumericBound bound) : ∃ low, least bound = .ok low := by
  cases bound with
  | unbounded => exact ⟨_, rfl⟩
  | included v => exact exists_map_iff.2 (exists_numberOf h)
  | excluded v => exact exists_map_iff.2 (exists_numberOf h)

theorem exists_greatest {bound : Bound} (h : IsNumericBound bound) :
    ∃ high, greatest bound = .ok high := by
  cases bound with
  | unbounded => exact ⟨_, rfl⟩
  | included v => exact exists_map_iff.2 (exists_numberOf h)
  | excluded v => exact exists_map_iff.2 (exists_numberOf h)

theorem exists_integers {interval : Interval} (h : interval.IsNumeric) :
    ∃ found, interval.integers = .ok found := by
  obtain ⟨lowest, hlowest⟩ := exists_least h.1
  obtain ⟨highest, hhighest⟩ := exists_greatest h.2
  unfold integers
  rw [hlowest]
  cases lowest with
  | none => exact ⟨none, rfl⟩
  | some low =>
    rw [hhighest]
    cases highest with
    | none => exact ⟨none, rfl⟩
    | some high => exact ⟨_, rfl⟩

/-! ## Bounds that are no numbers -/

/-- The value is an end of the interval on this side, and no number. -/
def NotNumber (bound : Bound) (v : Value) : Prop :=
  (bound = .included v ∨ bound = .excluded v) ∧ v.number? = none

/-- No integer lies above the bound: it excludes the greatest one. -/
def PastAll (bound : Bound) : Prop :=
  ∃ v, bound = .excluded v ∧ v.number? = some Int64.maxValue

/-- The lower bound if it is no number, else the upper bound if that is none. -/
def FirstNotNumber (interval : Interval) (v : Value) : Prop :=
  NotNumber interval.lower v ∨ IsNumericBound interval.lower ∧ NotNumber interval.upper v

theorem isNumericBound_iff {bound : Bound} : IsNumericBound bound ↔ ∀ v, ¬NotNumber bound v := by
  cases bound with
  | unbounded => simp [IsNumericBound, NotNumber]
  | _ v => simp [IsNumericBound, NotNumber, Option.isSome_iff_ne_none]

/-- Some bound is first to be no number exactly where not both are numbers. -/
theorem exists_firstNotNumber_iff {interval : Interval} :
    (∃ v, interval.FirstNotNumber v) ↔ ¬interval.IsNumeric := by
  simp only [FirstNotNumber, IsNumeric, isNumericBound_iff]
  grind

theorem numberOf_eq_error {v w : Value} : numberOf v = .error w ↔ v = w ∧ v.number? = none := by
  unfold numberOf
  cases v.number? <;> simp

theorem least_eq_error_iff {bound : Bound} {v : Value} :
    least bound = .error v ↔ NotNumber bound v := by
  cases bound with
  | unbounded => simp [least, NotNumber]
  | _ w =>
    simp only [least, map_eq_error, numberOf_eq_error, NotNumber]
    grind

theorem greatest_eq_error_iff {bound : Bound} {v : Value} :
    greatest bound = .error v ↔ NotNumber bound v := by
  cases bound with
  | unbounded => simp [greatest, NotNumber]
  | _ w =>
    simp only [greatest, map_eq_error, numberOf_eq_error, NotNumber]
    grind

theorem fit_succ_eq_none_iff {n : Int64} :
    Text.Numeral.fit (n.toInt + 1) = none ↔ n = Int64.maxValue := by
  constructor
  · intro h
    have hmin := n.minValue_le_toInt
    have hmax := n.toInt_le
    have hout := fit_eq_none h
    exact Int64.toInt_inj.1 (by omega)
  · rintro rfl
    decide

theorem least_eq_none_iff {bound : Bound} : least bound = .ok none ↔ PastAll bound := by
  cases bound with
  | excluded v => simp [least, PastAll, map_eq_ok, numberOf_eq_ok, fit_succ_eq_none_iff]
  | _ => simp [least, PastAll, map_eq_ok]

/-- A bound that is no number is found, the lower one first. The upper one is not looked at where
nothing lies above the lower one. -/
theorem integers_eq_error_iff {interval : Interval} {v : Value} :
    interval.integers = .error v ↔
      interval.FirstNotNumber v ∧ ¬PastAll interval.lower := by
  rw [integers, bind_eq_error]
  constructor
  · rintro (hlow | ⟨lowest, hlow, h⟩)
    · refine ⟨.inl (least_eq_error_iff.1 hlow), fun hpast => ?_⟩
      rw [least_eq_none_iff.2 hpast] at hlow
      cases hlow
    · have hnumeric : IsNumericBound interval.lower := by
        refine isNumericBound_iff.2 fun w hw => ?_
        rw [least_eq_error_iff.2 hw] at hlow
        cases hlow
      cases lowest with
      | none => cases h
      | some low =>
        have hpast : ¬PastAll interval.lower := by
          rw [← least_eq_none_iff, hlow]
          simp
        rcases bind_eq_error.1 h with hhigh | ⟨highest, _, h⟩
        · exact ⟨.inr ⟨hnumeric, greatest_eq_error_iff.1 hhigh⟩, hpast⟩
        · cases highest <;> cases h
  · rintro ⟨hlower | ⟨hnumeric, hupper⟩, hpast⟩
    · exact .inl (least_eq_error_iff.2 hlower)
    · obtain ⟨lowest, hlow⟩ := exists_least hnumeric
      cases lowest with
      | none => exact absurd (least_eq_none_iff.1 hlow) hpast
      | some low =>
        exact .inr ⟨some low, hlow, bind_eq_error.2 (.inl (greatest_eq_error_iff.2 hupper))⟩

/-! ## Bounds that are integers -/

/-- The bound, if there is one, is an integer and no text. -/
def IsIntegerBound : Bound → Prop
  | .unbounded => True
  | .included v | .excluded v => ∃ n, v = .int n

def IsInteger (interval : Interval) : Prop :=
  IsIntegerBound interval.lower ∧ IsIntegerBound interval.upper

theorem admitsAbove_iff {bound : Bound} (h : IsIntegerBound bound) (n : Int64) :
    admitsAbove bound (.int n) ↔ IsAbove bound n := by
  cases bound with
  | unbounded => simp [admitsAbove, IsAbove]
  | included v | excluded v =>
    obtain ⟨m, rfl⟩ := h
    simp [admitsAbove, IsAbove, Value.before, Value.number?]

theorem admitsBelow_iff {bound : Bound} (h : IsIntegerBound bound) (n : Int64) :
    admitsBelow bound (.int n) ↔ IsBelow bound n := by
  cases bound with
  | unbounded => simp [admitsBelow, IsBelow]
  | included v | excluded v =>
    obtain ⟨m, rfl⟩ := h
    simp [admitsBelow, IsBelow, Value.before, Value.number?]

/-- Between integers the order of values and the order of numbers agree on the integers. -/
theorem contains_int_iff {interval : Interval} (h : interval.IsInteger) (n : Int64) :
    interval.contains (.int n) ↔ interval.Admits n := by
  rw [contains, Bool.and_eq_true, admitsAbove_iff h.1, admitsBelow_iff h.2, Admits]

/-- The first integer that is found is not after the last one. -/
theorem le_of_integers {interval : Interval} {low high : Int64}
    (h : interval.integers = .ok (some (low, high))) : low ≤ high := by
  obtain ⟨lowest, _, h⟩ := bind_eq_ok.1 h
  cases lowest with
  | none => cases h
  | some first =>
    obtain ⟨highest, _, h⟩ := bind_eq_ok.1 h
    cases highest with
    | none => cases h
    | some last =>
      have hends : (if first ≤ last then some (first, last) else none) = some (low, high) :=
        Except.ok.inj h
      obtain ⟨hle, heq⟩ := Option.ite_none_right_eq_some.1 hends
      cases heq
      exact hle

/-- An interval between numbers has the integers from the first to the last one that is found, and
none is found exactly where it has none. Between integers it holds the same ones by comparison. -/
theorem integers_exact {interval : Interval} (h : interval.IsNumeric) :
    ∃ found, interval.integers = .ok found ∧
      (found = none ↔ ∀ n, ¬interval.Admits n) ∧
      (∀ low high, found = some (low, high) →
        low ≤ high ∧ ∀ n, interval.Admits n ↔ low ≤ n ∧ n ≤ high) ∧
      (interval.IsInteger → ∀ n, interval.contains (.int n) ↔
        ∃ low high, found = some (low, high) ∧ low ≤ n ∧ n ≤ high) := by
  obtain ⟨found, hfound⟩ := exists_integers h
  have hadmits := admits_iff hfound
  refine ⟨found, hfound, ?_, ?_, ?_⟩
  · constructor
    · rintro rfl n hn
      obtain ⟨low, high, hnone, _⟩ := (hadmits n).1 hn
      cases hnone
    · intro hempty
      cases found with
      | none => rfl
      | some ends =>
        -- the first integer found would be in the interval
        have hfirst := (hadmits ends.1).2 ⟨_, _, rfl, Int64.le_refl _, le_of_integers hfound⟩
        exact absurd hfirst (hempty _)
  · rintro low high rfl
    refine ⟨le_of_integers hfound, fun n => ?_⟩
    rw [hadmits]
    simp
  · intro hinteger n
    rw [contains_int_iff hinteger, hadmits]

/-- From the number that a text writes up to below an integer. -/
def fromSeven : Interval := ⟨.included (.text " +7 "), .excluded (.int 9)⟩

/-- Below all integers. -/
def belowAll : Interval := ⟨.unbounded, .excluded (.int Int64.minValue)⟩

theorem integers_exact_edges :
    (fromSeven.IsNumeric ∧ fromSeven.integers = .ok (some (7, 8)) ∧
      ∀ n, fromSeven.Admits n ↔ 7 ≤ n ∧ n ≤ 8) ∧
    (belowAll.IsNumeric ∧ belowAll.IsInteger ∧ belowAll.integers = .ok none ∧
      ∀ n, ¬belowAll.contains (.int n)) := by
  have hnumber : (Value.text " +7 ").number? = some 7 := by decide
  have hseven : fromSeven.IsNumeric := ⟨Option.isSome_of_eq_some hnumber, rfl⟩
  have hfound : fromSeven.integers = .ok (some (7, 8)) := eq_ok_of_toOption (by decide)
  have hbelow : belowAll.IsNumeric := ⟨trivial, rfl⟩
  have hinteger : belowAll.IsInteger := ⟨trivial, _, rfl⟩
  have hnone : belowAll.integers = .ok none := eq_ok_of_toOption (by decide)
  refine ⟨⟨hseven, hfound, ?_⟩, hbelow, hinteger, hnone, ?_⟩
  · obtain ⟨found, heq, _, hends, _⟩ := integers_exact hseven
    cases hfound.symm.trans heq
    exact (hends 7 8 rfl).2
  · obtain ⟨found, heq, _, _, hcontains⟩ := integers_exact hbelow
    cases hnone.symm.trans heq
    simp [hcontains hinteger]

end Sharding.Interval
