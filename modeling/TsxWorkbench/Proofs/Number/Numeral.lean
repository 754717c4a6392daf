/-
Numerals of whole numbers. A script writes a whole number below 10^21 through a word of 64 bits, so what it writes is
the numeral of the number held to that range: the number itself from -2^63 up to 2^63, and an end of the range beyond.

- `Numeral.unique`: a text is the numeral of one number at most.
- `numeral_scriptText_iff`: the text of a whole number is the numeral of the number held to 64 bits, and of no other.
- `saturate64_eq_iff`: which numbers this leaves as they are.
- `equal_iff_of_whole`: whole doubles are equal if and only if they are the same number.
-/
import TsxWorkbench.Proofs.Number.ScriptText

namespace TsxWorkbench.Number

/-! ## Numerals -/

/-- the decimal digits of a natural number, without a needless zero in front -/
structure Digits (k : Nat) (digits : List Char) : Prop where
  value : digitsValue? 10 digits = some k
  ne_nil : digits ≠ []
  leading : digits.head? = some '0' → digits = ['0']

/-- the numeral of a whole number: its digits, after a minus sign if it is negative -/
inductive Numeral : Int → List Char → Prop
  | natural {k : Nat} {digits : List Char} (h : Digits k digits) : Numeral k digits
  | negative {k : Nat} {digits : List Char} (h : Digits (k + 1) digits) : Numeral (Int.negSucc k) ('-' :: digits)

variable {n k : Int} {text : List Char}

theorem Digits.unique {a b : Nat} (ha : Digits a text) (hb : Digits b text) : a = b :=
  Option.some.inj (ha.value.symm.trans hb.value)

theorem Digits.ne_minus {a : Nat} {rest : List Char} : ¬Digits a ('-' :: rest) := by
  intro h
  have hminus := digit_of_digitsValue? h.value '-' List.mem_cons_self
  exact absurd hminus (by decide)

/-- a text is the numeral of one number at most -/
theorem Numeral.unique (h : Numeral n text) (h' : Numeral k text) : n = k := by
  cases h with
  | natural h =>
    cases h' with
    | natural h' => rw [h.unique h']
    | negative => exact absurd h Digits.ne_minus
  | negative h =>
    cases h' with
    | natural h' => exact absurd h' Digits.ne_minus
    | negative h' => rw [Nat.succ.inj (h.unique h')]

/-! ## Digits as they are written -/

theorem toDigits_head?_ne_zero {a : Nat} (h : 0 < a) : (Nat.toDigits 10 a).head? ≠ some '0' := by
  induction a using Nat.strongRecOn with
  | ind a ih =>
    by_cases hsmall : a < 10
    · have hdigits : ∀ d < 10, 0 < d → [Nat.digitChar d].head? ≠ some '0' := by decide
      rw [Nat.toDigits_of_lt_base hsmall]
      exact hdigits a hsmall h
    · rw [Nat.toDigits_of_base_le (by decide) (Nat.le_of_not_lt hsmall),
        List.head?_append_of_ne_nil _ Nat.toDigits_ne_nil]
      exact ih (a / 10) (by omega) (by omega)

theorem digits_toDigits (a : Nat) : Digits a (Nat.toDigits 10 a) where
  value := digitsValue?_toDigits a
  ne_nil := Nat.toDigits_ne_nil
  leading := by
    intro hzero
    rcases Nat.eq_zero_or_pos a with rfl | hpos
    · rfl
    · exact absurd hzero (toDigits_head?_ne_zero hpos)

theorem numeral_intText (n : Int) : Numeral n (toString n).toList := by
  cases n with
  | ofNat a =>
    rw [toList_intText_ofNat]
    exact .natural (digits_toDigits a)
  | negSucc a =>
    rw [toList_intText_negSucc]
    exact .negative (digits_toDigits (a + 1))

namespace Binary64

/-! ## Whole numbers in a script -/

variable {x y : Binary64}

/-- **Whole numbers.** The text of a whole number below 10^21 is the numeral of the number held to 64 bits. -/
theorem numeral_scriptText (hx : x.toInt? = some n) (hn : n.natAbs < Nat.pow 10 21) :
    Numeral (saturate64 n) x.scriptText := by
  unfold scriptText
  rw [hx]
  dsimp only
  rw [if_pos hn]
  exact numeral_intText _

theorem numeral_scriptText_iff (hx : x.toInt? = some n) (hn : n.natAbs < Nat.pow 10 21) :
    Numeral k x.scriptText ↔ k = saturate64 n := by
  constructor
  · intro h
    exact h.unique (numeral_scriptText hx hn)
  · rintro rfl
    exact numeral_scriptText hx hn

theorem saturate64_eq_iff : saturate64 n = n ↔ -Int.pow 2 63 ≤ n ∧ n < Int.pow 2 63 := by
  have hbound : (0 : Int) < Int.pow 2 63 := by decide
  unfold saturate64
  generalize Int.pow 2 63 = bound at hbound ⊢
  omega

/-- a natural number below the end of the range comes of no other number -/
theorem saturate64_eq_natCast_iff {a : Nat} (ha : (a : Int) < Int.pow 2 63 - 1) : saturate64 n = a ↔ n = a := by
  have hbound : (0 : Int) < Int.pow 2 63 := by decide
  unfold saturate64
  generalize Int.pow 2 63 = bound at ha hbound ⊢
  omega

/-! ## Equality of whole numbers -/

/-- not a number, an infinity, or ±m · 2^q with a mantissa of at most 53 bits and an exponent in its range -/
def isDouble : Binary64 → Bool
  | .finite _ m q => m < Nat.pow 2 53 && minExponent ≤ q && q ≤ maxExponent
  | _ => true

/-- the size of a whole number, counted in a unit that no exponent is below -/
theorem size_of_whole {m : Nat} {q least : Int} (hleast : least ≤ 0) (hq : least ≤ q)
    (hwhole : (ratio m q).1 % (ratio m q).2 = 0) :
    m * Nat.pow 2 (q - least).toNat = (ratio m q).1 / (ratio m q).2 * Nat.pow 2 (-least).toNat := by
  unfold ratio at hwhole ⊢
  split at hwhole
  · rename_i hpos
    have hexponent : (q - least).toNat = q.toNat + (-least).toNat := by omega
    rw [if_pos hpos, hexponent, Nat.div_one, Nat.mul_assoc]
    exact congrArg (m * ·) (Nat.pow_add 2 q.toNat (-least).toNat)
  · -- the denominator goes into the mantissa, and with the rest of the exponent it makes the unit
    rename_i hneg
    have hexponent : (-least).toNat = (-q).toNat + (q - least).toNat := by omega
    have hcancel : m / Nat.pow 2 (-q).toNat * Nat.pow 2 (-q).toNat = m :=
      Nat.div_mul_cancel (Nat.dvd_of_mod_eq_zero hwhole)
    rw [if_neg hneg, hexponent]
    calc m * Nat.pow 2 (q - least).toNat
        = m / Nat.pow 2 (-q).toNat * Nat.pow 2 (-q).toNat * Nat.pow 2 (q - least).toNat := by rw [hcancel]
      _ = m / Nat.pow 2 (-q).toNat * (Nat.pow 2 (-q).toNat * Nat.pow 2 (q - least).toNat) := Nat.mul_assoc _ _ _
      _ = m / Nat.pow 2 (-q).toNat * Nat.pow 2 ((-q).toNat + (q - least).toNat) :=
        congrArg (m / Nat.pow 2 (-q).toNat * ·) (Nat.pow_add 2 _ _).symm

/-- units of the doubles in 1 -/
def unitsInOne : Nat := Nat.pow 2 (-minExponent).toNat

theorem unitsInOne_pos : 0 < unitsInOne := by
  unfold unitsInOne
  -- 2^1074 is not to be computed
  generalize (-minExponent).toNat = e
  exact Nat.pow_pos (by decide)

theorem units_of_toInt? {s : Bool} {m : Nat} {q : Int} (hq : minExponent ≤ q) (h : (finite s m q).toInt? = some n) :
    units s m q = n * unitsInOne := by
  unfold toInt? at h
  dsimp only at h
  split at h
  · rename_i hwhole
    have hsize : m * Nat.pow 2 (q - minExponent).toNat = (ratio m q).1 / (ratio m q).2 * unitsInOne := by
      unfold unitsInOne
      exact size_of_whole (by decide) hq hwhole
    -- from here on the unit is any number
    generalize unitsInOne = unit at hsize ⊢
    cases h
    rw [units, hsize, Int.natCast_mul]
    cases s
    · simp
    · simp only [if_true, Int.neg_mul, Int.one_mul]
  · cases h

/-- the sign of a whole number; a negative zero is none -/
theorem neg_iff_of_toInt? {s : Bool} {m : Nat} {q : Int} (hq : minExponent ≤ q)
    (h : (finite s m q).toInt? = some n) : n < 0 ↔ s = true ∧ m ≠ 0 := by
  have hunit : (0 : Int) < unitsInOne := Int.natCast_pos.2 unitsInOne_pos
  have hscale : 0 < Nat.pow 2 (q - minExponent).toNat := Nat.pow_pos (by decide)
  obtain ⟨size, hsize⟩ : ∃ size, size = m * Nat.pow 2 (q - minExponent).toNat := ⟨_, rfl⟩
  have hpos : 0 < size ↔ m ≠ 0 := by rw [hsize, Nat.mul_pos_iff_of_pos_right hscale, Nat.pos_iff_ne_zero]
  have hunits : units s m q = (if s then -1 else 1) * (size : Int) := by rw [hsize]; rfl
  have hsign : units s m q < 0 ↔ s = true ∧ m ≠ 0 := by
    rw [hunits, ← hpos]
    cases s <;> simp
  rw [← hsign, units_of_toInt? hq h]
  constructor
  · intro hneg
    exact Int.mul_neg_of_neg_of_pos hneg hunit
  · intro hneg
    by_contra hnonneg
    have := Int.mul_nonneg (Int.not_lt.1 hnonneg) (Int.le_of_lt hunit)
    omega

theorem finite_of_toInt? (h : x.toInt? = some n) : ∃ s m q, x = .finite s m q := by
  cases x with
  | finite s m q => exact ⟨s, m, q, rfl⟩
  | _ => cases h

/-- **Equal whole numbers.** Whole doubles are equal if and only if they are the same number. -/
theorem equal_iff_of_whole (hx : x.isDouble = true) (hy : y.isDouble = true) (hn : x.toInt? = some n)
    (hk : y.toInt? = some k) : x.equal y = true ↔ n = k := by
  obtain ⟨s, m, q, rfl⟩ := finite_of_toInt? hn
  obtain ⟨t, l, r, rfl⟩ := finite_of_toInt? hk
  simp only [isDouble, Bool.and_eq_true, decide_eq_true_eq] at hx hy
  have hunit : (unitsInOne : Int) ≠ 0 := Int.natCast_ne_zero.2 unitsInOne_pos.ne'
  rw [equal, beq_iff_eq, units_of_toInt? hx.1.2 hn, units_of_toInt? hy.1.2 hk, Int.mul_eq_mul_right_iff hunit]

end Binary64

end TsxWorkbench.Number
