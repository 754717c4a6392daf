/-
Lengths as they are written. A finite length is written as a plain decimal: a minus sign or none, digits, and at most
two places without a zero at their end, never a negative zero (`PlainDecimal`). It is the length rounded to hundredths
(`plainDecimal_formatPixels`). What is not finite is written as a word, which is no decimal (`rounds_formatPixels`).
-/
import TsxWorkbench.Edit.Move
import TsxWorkbench.Proofs.Number.ScriptText

namespace TsxWorkbench.Edit

open Number Text Utility

/-! ## Plain decimals -/

/-- a plain decimal of a sign and a number of hundredths: no place, one or two of them -/
inductive PlainDecimal (negative : Bool) : Nat → List Char → Prop
  | whole {digits : List Char} {k : Nat} (hne : digits ≠ []) (hdigits : digitsValue? 10 digits = some k)
    (hzero : negative = true → k ≠ 0) : PlainDecimal negative (100 * k) (Binary64.signed negative digits)
  | tenths {digits : List Char} {k r : Nat} {c : Char} (hne : digits ≠ []) (hdigits : digitsValue? 10 digits = some k)
    (htenth : digitValue? 10 c = some r) (hlast : c ≠ '0') :
    PlainDecimal negative (100 * k + 10 * r) (Binary64.signed negative (digits ++ ['.', c]))
  | hundredths {digits : List Char} {k r t : Nat} {c d : Char} (hne : digits ≠ [])
    (hdigits : digitsValue? 10 digits = some k) (htenth : digitValue? 10 c = some r)
    (hhundredth : digitValue? 10 d = some t) (hlast : d ≠ '0') :
    PlainDecimal negative (100 * k + 10 * r + t) (Binary64.signed negative (digits ++ ['.', c, d]))

/-- a plain decimal of any sign and value -/
def IsPlainDecimal (text : List Char) : Prop := ∃ negative n, PlainDecimal negative n text

theorem PlainDecimal.ne_nil {negative : Bool} {n : Nat} {text : List Char} (h : PlainDecimal negative n text) :
    text ≠ [] := by
  cases negative <;> cases h <;> simp_all [Binary64.signed]

theorem PlainDecimal.chars {negative : Bool} {n : Nat} {text : List Char} (h : PlainDecimal negative n text) {c : Char}
    (hc : c ∈ text) : (digitValue? 10 c).isSome = true ∨ c = '.' ∨ c = '-' := by
  have hsigned {body : List Char} (hc : c ∈ Binary64.signed negative body) : c = '-' ∨ c ∈ body := by
    cases negative with
    | false => exact .inr hc
    | true => exact List.mem_cons.1 hc
  have hdigit {d : Char} {r : Nat} (h : digitValue? 10 d = some r) : (digitValue? 10 d).isSome = true :=
    Option.isSome_iff_exists.2 ⟨r, h⟩
  cases h with
  | whole _ hdigits =>
    rcases hsigned hc with hsign | hc
    · exact .inr (.inr hsign)
    · exact .inl (digit_of_digitsValue? hdigits c hc)
  | tenths _ hdigits htenth =>
    rcases hsigned hc with hsign | hc
    · exact .inr (.inr hsign)
    simp only [List.mem_append, List.mem_cons, List.not_mem_nil, or_false] at hc
    rcases hc with hc | hpoint | rfl
    · exact .inl (digit_of_digitsValue? hdigits c hc)
    · exact .inr (.inl hpoint)
    · exact .inl (hdigit htenth)
  | hundredths _ hdigits htenth hhundredth =>
    rcases hsigned hc with hsign | hc
    · exact .inr (.inr hsign)
    simp only [List.mem_append, List.mem_cons, List.not_mem_nil, or_false] at hc
    rcases hc with hc | hpoint | rfl | rfl
    · exact .inl (digit_of_digitsValue? hdigits c hc)
    · exact .inr (.inl hpoint)
    · exact .inl (hdigit htenth)
    · exact .inl (hdigit hhundredth)

theorem PlainDecimal.ne_negativeZero {negative : Bool} {n : Nat} {text : List Char}
    (h : PlainDecimal negative n text) : text ≠ "-0".toList := by
  have hpoint {body rest : List Char} : Binary64.signed negative (body ++ '.' :: rest) ≠ "-0".toList := by
    intro htext
    have hmem : '.' ∈ Binary64.signed negative (body ++ '.' :: rest) := by cases negative <;> simp [Binary64.signed]
    rw [htext] at hmem
    exact absurd hmem (by decide)
  cases h with
  | @whole digits k hne hdigits hzero =>
    intro htext
    cases negative with
    | false =>
      rw [show digits = ['-', '0'] from htext] at hdigits
      cases hdigits
    | true =>
      rw [show digits = ['0'] from (List.cons.inj htext).2] at hdigits
      exact hzero rfl (Option.some.inj hdigits).symm
  | tenths => exact hpoint
  | hundredths => exact hpoint

/-- a word is no decimal -/
theorem not_isPlainDecimal_of_mem {text : List Char} {c : Char} (hc : c ∈ text)
    (h : digitValue? 10 c = none ∧ c ≠ '.' ∧ c ≠ '-') : ¬IsPlainDecimal text := by
  rintro ⟨negative, n, hdecimal⟩
  rcases hdecimal.chars hc with hdigit | hpoint | hsign
  · rw [h.1] at hdigit
    cases hdigit
  · exact h.2.1 hpoint
  · exact h.2.2 hsign

/-! ## Digits -/

/-- the last two digits of three and more -/
theorem toDigits_hundredths {n : Nat} (h : 100 ≤ n) : Nat.toDigits 10 n =
    Nat.toDigits 10 (n / 100) ++ [Nat.digitChar (n / 10 % 10), Nat.digitChar (n % 10)] := by
  rw [Nat.toDigits_of_base_le (by decide) (by omega : 10 ≤ n),
    Nat.toDigits_of_base_le (by decide) (by omega : 10 ≤ n / 10), Nat.div_div_eq_div_mul, List.append_assoc]
  rfl

/-- the text of a number of hundredths with two places -/
theorem positional_hundredths (n : Nat) : Decimal.positional ⟨n, -2⟩ =
    Nat.toDigits 10 (n / 100) ++ ['.', Nat.digitChar (n / 10 % 10), Nat.digitChar (n % 10)] := by
  have hpadded : List.replicate (3 - (Nat.toDigits 10 n).length) '0' ++ Nat.toDigits 10 n =
      Nat.toDigits 10 (n / 100) ++ [Nat.digitChar (n / 10 % 10), Nat.digitChar (n % 10)] := by
    rcases Nat.lt_or_ge n 100 with hsmall | hlarge
    · revert n
      decide
    · have hwhole : 0 < (Nat.toDigits 10 (n / 100)).length := List.length_pos_iff.2 Nat.toDigits_ne_nil
      rw [toDigits_hundredths hlarge, List.length_append, List.length_cons, List.length_singleton,
        show 3 - ((Nat.toDigits 10 (n / 100)).length + 2) = 0 by omega]
      rfl
  change (let padded := List.replicate (3 - (Nat.toDigits 10 n).length) '0' ++ Nat.toDigits 10 n
    padded.take (padded.length - 2) ++ '.' :: padded.drop (padded.length - 2)) = _
  rw [hpadded]
  simp

/-! ## Places -/

/-- what is left of two places: none, one or both of them, without a zero at their end -/
def places (n : Nat) : List Char :=
  if n % 10 ≠ 0 then ['.', Nat.digitChar (n / 10 % 10), Nat.digitChar (n % 10)]
  else if n / 10 % 10 ≠ 0 then ['.', Nat.digitChar (n / 10 % 10)]
  else []

theorem dropEndWhile_eq_rdropWhile (p : Char → Bool) (cs : List Char) : dropEndWhile p cs = cs.rdropWhile p := rfl

/-- trimming stops at the point, so that no zero of the whole part goes -/
theorem trimmed_places {whole : List Char} (hwhole : '.' ∉ whole) (n : Nat) :
    dropEndWhile (· == '.') (dropEndWhile (· == '0')
      (whole ++ ['.', Nat.digitChar (n / 10 % 10), Nat.digitChar (n % 10)])) = whole ++ places n := by
  have hsplit : whole ++ ['.', Nat.digitChar (n / 10 % 10), Nat.digitChar (n % 10)] =
      whole ++ ['.'] ++ [Nat.digitChar (n / 10 % 10)] ++ [Nat.digitChar (n % 10)] := by simp
  have hkept : whole.rdropWhile (· == '.') = whole :=
    List.rdropWhile_eq_self_iff.2 fun hne hlast => hwhole (beq_iff_eq.1 hlast ▸ List.getLast_mem hne)
  rw [hsplit, dropEndWhile_eq_rdropWhile, dropEndWhile_eq_rdropWhile, List.rdropWhile_concat, List.rdropWhile_concat,
    List.rdropWhile_concat]
  unfold places
  by_cases hlast : n % 10 = 0
  · by_cases hfirst : n / 10 % 10 = 0
    · simpa [hlast, hfirst] using hkept
    · simp [hlast, hfirst]
  · simp [hlast]

theorem plainDecimal_places {negative : Bool} {n : Nat} (h : negative = true → n ≠ 0) :
    PlainDecimal negative n (Binary64.signed negative (Nat.toDigits 10 (n / 100) ++ places n)) := by
  have hne : Nat.toDigits 10 (n / 100) ≠ [] := Nat.toDigits_ne_nil
  have hdigits := digitsValue?_toDigits (n / 100)
  have htenth := digitValue?_digitChar (n / 10 % 10) (Nat.mod_lt _ (by decide))
  have hhundredth := digitValue?_digitChar (n % 10) (Nat.mod_lt _ (by decide))
  unfold places
  by_cases hlast : n % 10 = 0
  · rw [if_neg (not_not_intro hlast)]
    by_cases hfirst : n / 10 % 10 = 0
    · rw [if_neg (not_not_intro hfirst), List.append_nil]
      have hwhole : PlainDecimal negative (100 * (n / 100)) _ :=
        .whole hne hdigits fun hnegative => by have := h hnegative; omega
      rwa [show 100 * (n / 100) = n by omega] at hwhole
    · rw [if_pos hfirst]
      have htenths : PlainDecimal negative (100 * (n / 100) + 10 * (n / 10 % 10)) _ :=
        .tenths hne hdigits htenth (by simpa using hfirst)
      rwa [show 100 * (n / 100) + 10 * (n / 10 % 10) = n by omega] at htenths
  · rw [if_pos hlast]
    have hhundredths : PlainDecimal negative (100 * (n / 100) + 10 * (n / 10 % 10) + n % 10) _ :=
      .hundredths hne hdigits htenth hhundredth (by simpa using hlast)
    rwa [show 100 * (n / 100) + 10 * (n / 10 % 10) + n % 10 = n by omega] at hhundredths

/-! ## The written length -/

/-- the length in hundredths, rounded from the exact value -/
def hundredths (m : Nat) (q : Int) : Nat := Binary64.roundDiv ((Binary64.ratio m q).1 * 100) (Binary64.ratio m q).2

theorem signed_append (negative : Bool) (text more : List Char) :
    Binary64.signed negative (text ++ more) = Binary64.signed negative text ++ more := by
  cases negative <;> rfl

theorem trimDecimal_finite (s : Bool) (m : Nat) (q : Int) : trimDecimal 2 (.finite s m q) =
    Binary64.signed s (Nat.toDigits 10 (hundredths m q / 100) ++ places (hundredths m q)) := by
  have hfixed : (Binary64.finite s m q).fixed 2 = Binary64.signed s (Decimal.positional ⟨hundredths m q, -2⟩) := rfl
  have hpoint : '.' ∉ Binary64.signed s (Nat.toDigits 10 (hundredths m q / 100)) := by
    have hdigits : '.' ∉ Nat.toDigits 10 (hundredths m q / 100) := fun h => by cases isDigit_of_mem_toDigits h
    unfold Binary64.signed
    split
    · simpa using hdigits
    · exact hdigits
  unfold trimDecimal
  rw [hfixed, positional_hundredths, signed_append, trimmed_places hpoint, signed_append]

/-- no length is written as a negative zero -/
theorem formatPixels_finite (s : Bool) (m : Nat) (q : Int) : formatPixels (.finite s m q) =
    Binary64.signed (s && hundredths m q != 0)
      (Nat.toDigits 10 (hundredths m q / 100) ++ places (hundredths m q)) := by
  unfold formatPixels
  dsimp only
  rw [trimDecimal_finite]
  by_cases hn : hundredths m q = 0
  · rw [hn]
    cases s <;> rfl
  · have hdecimal : PlainDecimal s (hundredths m q) _ := plainDecimal_places fun _ => hn
    rw [if_neg (not_or.2 ⟨hdecimal.ne_negativeZero, hdecimal.ne_nil⟩), bne_iff_ne.2 hn, Bool.and_true]

/-- **Lengths as decimals.** A finite length is written as the plain decimal of its hundredths. -/
theorem plainDecimal_formatPixels (s : Bool) (m : Nat) (q : Int) :
    PlainDecimal (s && hundredths m q != 0) (hundredths m q) (formatPixels (.finite s m q)) := by
  rw [formatPixels_finite]
  refine plainDecimal_places fun hnegative => ?_
  exact bne_iff_ne.1 (Bool.and_eq_true_iff.1 hnegative).2

/-- a text is a length as a plain decimal, or the length is not finite and the text is no decimal at all -/
def Rounds : Binary64 → List Char → Prop
  | .finite s m q, text => PlainDecimal (s && hundredths m q != 0) (hundredths m q) text
  | _, text => ¬IsPlainDecimal text

theorem rounds_formatPixels (x : Binary64) : Rounds x (formatPixels x) := by
  cases x with
  | nan => exact not_isPlainDecimal_of_mem (c := 'N') (by decide) (by decide)
  | infinite s =>
    refine not_isPlainDecimal_of_mem (c := 'n') ?_ (by decide)
    cases s <;> decide
  | finite s m q => exact plainDecimal_formatPixels s m q

theorem chars_formatPixels (x : Binary64) : ∀ c ∈ formatPixels x, isNumberChar c = true := by
  cases x with
  | nan => exact List.all_eq_true.1 (by decide)
  | infinite s => cases s <;> exact List.all_eq_true.1 (by decide)
  | finite s m q =>
    intro c hc
    rcases (plainDecimal_formatPixels s m q).chars hc with hdigit | rfl | rfl
    · exact isNumberChar_of_code (code_of_digitValue? hdigit (by decide))
    · decide
    · decide

end TsxWorkbench.Edit
