/-
Characters of numbers. A run that ends in something else than a digit is no number (`unsigned?_concat_eq_none`), and the
text of a number that is finite and not negative is digits, and a point with more digits if there is one
(`scriptText_positional`), so that it can stand in a class without being read as anything else. Whatever is read as a
number or written as one is made of digits, letters, points and signs (`chars_of_decimal?`, `chars_scriptText`).
-/
import Mathlib.Data.List.DropRight
import Mathlib.Tactic.SplitIfs
import TsxWorkbench.Number.Reader
import TsxWorkbench.Text.Blank

namespace TsxWorkbench.Number

/-! ## Characters -/

/-- a character of a number as it is read or written: a digit, an ASCII letter, a point or a sign -/
def isNumberChar (c : Char) : Bool := (digitValue? 36 c).isSome || ['.', '-', '+'].contains c

theorem isNumberChar_of_code {c : Char} (h : (48 ≤ c.toNat ∧ c.toNat ≤ 57) ∨ (65 ≤ c.toNat ∧ c.toNat ≤ 90) ∨
    (97 ≤ c.toNat ∧ c.toNat ≤ 122)) : isNumberChar c = true := by
  have hvalue : (digitValue? 36 c).isSome = true := by
    unfold digitValue?
    dsimp only
    split_ifs <;> first | rfl | omega
  rw [isNumberChar, hvalue, Bool.true_or]

theorem code_of_digitValue? {base : Nat} {c : Char} (h : (digitValue? base c).isSome = true) (hbase : base ≤ 36) :
    (48 ≤ c.toNat ∧ c.toNat ≤ 57) ∨ (65 ≤ c.toNat ∧ c.toNat ≤ 90) ∨ (97 ≤ c.toNat ∧ c.toNat ≤ 122) := by
  unfold digitValue? at h
  dsimp only at h
  split at h
  · omega
  · split at h
    · omega
    · split at h
      · omega
      · rw [if_neg (by omega)] at h
        cases h

theorem code_of_isNumberChar {c : Char} (h : isNumberChar c = true) : (48 ≤ c.toNat ∧ c.toNat ≤ 57) ∨
    (65 ≤ c.toNat ∧ c.toNat ≤ 90) ∨ (97 ≤ c.toNat ∧ c.toNat ≤ 122) ∨ c = '.' ∨ c = '-' ∨ c = '+' := by
  rw [isNumberChar, Bool.or_eq_true] at h
  rcases h with h | h
  · have := code_of_digitValue? h (Nat.le_refl _)
    omega
  · simp only [List.contains_iff_mem, List.mem_cons, List.not_mem_nil, or_false] at h
    exact .inr (.inr (.inr h))

theorem isNumberChar_of_isDigit {c : Char} (h : isDigit c = true) : isNumberChar c = true := by
  simp only [isDigit, Bool.and_eq_true, decide_eq_true_eq] at h
  exact isNumberChar_of_code (.inl h)

/-! ## Reading -/

theorem digitsValue?_concat (base : Nat) (cs : List Char) (c : Char) :
    digitsValue? base (cs ++ [c]) = match digitsValue? base cs, digitValue? base c with
      | some n, some d => some (n * base + d)
      | _, _ => none := by
  unfold digitsValue?
  rw [List.foldl_append]
  rfl

/-- a run that ends in something else than a digit is no number -/
theorem natural?_concat_eq_none {base : Nat} (cs : List Char) {c : Char} (hc : digitValue? base c = none) :
    natural? base (cs ++ [c]) = none := by
  unfold natural?
  rw [digitsValue?_concat, hc, if_neg (by simp)]
  split <;> simp_all

theorem unsigned?_concat_eq_none (bound : Nat) (cs : List Char) {c : Char} (hc : digitValue? 10 c = none)
    (hplus : c ≠ '+') : unsigned? bound (cs ++ [c]) = none := by
  unfold unsigned?
  split
  · rename_i rest heq
    cases cs with
    | nil => exact absurd (List.cons.inj heq).1 hplus
    | cons d cs =>
      have hrest : cs ++ [c] = rest := (List.cons.inj heq).2
      dsimp only
      rw [← hrest, natural?_concat_eq_none cs hc]
  · dsimp only
    rw [natural?_concat_eq_none cs hc]

theorem digit_of_digitsValue? {base : Nat} {cs : List Char} {n : Nat} (h : digitsValue? base cs = some n) :
    ∀ c ∈ cs, (digitValue? base c).isSome = true := by
  induction cs using List.reverseRecOn generalizing n with
  | nil => simp
  | append_singleton cs c ih =>
    rw [digitsValue?_concat] at h
    split at h
    · rename_i hcs hc
      rw [List.forall_mem_append, List.forall_mem_singleton]
      exact ⟨ih hcs, Option.isSome_iff_exists.2 ⟨_, hc⟩⟩
    · cases h

theorem chars_of_digitsValue? {base : Nat} {cs : List Char} {n : Nat} (hbase : base ≤ 36)
    (h : digitsValue? base cs = some n) : ∀ c ∈ cs, isNumberChar c = true :=
  fun c hc => isNumberChar_of_code (code_of_digitValue? (digit_of_digitsValue? h c hc) hbase)

theorem chars_of_natural? {base : Nat} {cs : List Char} {n : Nat} (hbase : base ≤ 36)
    (h : natural? base cs = some n) : ∀ c ∈ cs, isNumberChar c = true := by
  unfold natural? at h
  split at h
  · cases h
  · exact chars_of_digitsValue? hbase h

theorem chars_of_unsigned? {bound : Nat} {cs : List Char} {n : Nat} (h : unsigned? bound cs = some n) :
    ∀ c ∈ cs, isNumberChar c = true := by
  unfold unsigned? at h
  dsimp only at h
  split at h
  · rename_i n' hn
    have hdigits := chars_of_natural? (by decide) hn
    split at hdigits
    · rw [List.forall_mem_cons]
      exact ⟨by decide, hdigits⟩
    · exact hdigits
  · cases h

theorem chars_of_exponent? {cs : List Char} {e : Int} (h : exponent? cs = some e) :
    ∀ c ∈ cs, isNumberChar c = true := by
  unfold exponent? at h
  split at h
  · obtain ⟨n, hn, -⟩ := Option.map_eq_some_iff.1 h
    obtain ⟨k, hk, -⟩ := Option.bind_eq_some_iff.1 hn
    exact List.forall_mem_cons.2 ⟨by decide, chars_of_natural? (by decide) hk⟩
  · obtain ⟨n, hn, -⟩ := Option.map_eq_some_iff.1 h
    exact List.forall_mem_cons.2 ⟨by decide, chars_of_natural? (by decide) hn⟩
  · obtain ⟨n, hn, -⟩ := Option.map_eq_some_iff.1 h
    exact chars_of_natural? (by decide) hn

theorem chars_of_takeWhile (cs : List Char) : ∀ c ∈ cs.takeWhile isDigit, isNumberChar c = true :=
  fun _ hc => isNumberChar_of_isDigit (List.mem_takeWhile_imp hc)

theorem chars_of_magnitude? {negative : Bool} {cs : List Char} {x : Binary64} (h : magnitude? negative cs = some x) :
    ∀ c ∈ cs, isNumberChar c = true := by
  unfold magnitude? at h
  extract_lets whole afterWhole fraction afterFraction at h
  have hwhole : cs = whole ++ afterWhole := List.takeWhile_append_dropWhile.symm
  have hdigits : ∀ c ∈ whole, isNumberChar c = true := chars_of_takeWhile cs
  clear_value whole afterWhole
  have hcut : afterWhole = afterFraction ∨
      ∃ rest, afterWhole = '.' :: rest ∧ afterFraction = rest.dropWhile isDigit := by
    unfold afterFraction
    split
    · exact .inr ⟨_, rfl, rfl⟩
    · exact .inl rfl
  clear_value afterFraction fraction
  have hpower : ∀ c ∈ afterFraction, isNumberChar c = true := by
    split at h
    · cases h
    split at h
    · cases h
    split at h
    · simp
    · split at h
      · rename_i hc
        obtain ⟨e, he, -⟩ := Option.map_eq_some_iff.1 h
        refine List.forall_mem_cons.2 ⟨?_, chars_of_exponent? he⟩
        rcases hc with rfl | rfl <;> decide
      · cases h
  rw [hwhole]
  refine List.forall_mem_append.2 ⟨hdigits, ?_⟩
  rcases hcut with hsame | ⟨rest, hpoint, hrest⟩
  · rw [hsame]
    exact hpower
  · rw [hpoint, ← List.takeWhile_append_dropWhile (p := isDigit) (l := rest), ← hrest]
    exact List.forall_mem_cons.2 ⟨by decide, List.forall_mem_append.2 ⟨chars_of_takeWhile rest, hpower⟩⟩

/-- a word in any case is made of letters if its lower case is -/
theorem chars_of_lowerAscii {cs : List Char} (h : ∀ c ∈ lowerAscii cs, isNumberChar c = true) :
    ∀ c ∈ cs, isNumberChar c = true := by
  intro c hc
  by_cases hupper : 65 ≤ c.toNat ∧ c.toNat ≤ 90
  · exact isNumberChar_of_code (.inr (.inl hupper))
  · have hsame := h _ (List.mem_map.2 ⟨c, hc, rfl⟩)
    rwa [if_neg hupper] at hsame

/-- **Texts of numbers.** What is read as a number is made of digits, letters, points and signs. -/
theorem chars_of_decimal? {cs : List Char} {x : Binary64} (h : decimal? cs = some x) :
    ∀ c ∈ cs, isNumberChar c = true := by
  unfold decimal? at h
  extract_lets negative body word at h
  have hbody : ∀ c ∈ body, isNumberChar c = true := by
    split at h
    · rename_i hword
      refine chars_of_lowerAscii (show ∀ c ∈ word, _ from ?_)
      rcases hword with hword | hword <;> rw [hword] <;> exact List.all_eq_true.1 (by decide)
    split at h
    · rename_i hword
      refine chars_of_lowerAscii (show ∀ c ∈ word, _ from ?_)
      rw [hword]
      exact List.all_eq_true.1 (by decide)
    · exact chars_of_magnitude? h
  have hcs : cs = body ∨ cs = '-' :: body ∨ cs = '+' :: body := by
    simp only [body]
    split
    · exact .inr (.inl rfl)
    · exact .inr (.inr rfl)
    · exact .inl rfl
  rcases hcs with heq | heq | heq <;> rw [heq]
  · exact hbody
  · exact List.forall_mem_cons.2 ⟨by decide, hbody⟩
  · exact List.forall_mem_cons.2 ⟨by decide, hbody⟩

theorem isBlank_of_isHexDigit {c : Char} (h : isHexDigit c = true) : Text.isBlank c = false := by
  unfold isHexDigit digitValue? at h
  dsimp only at h
  split at h
  · exact Text.isBlank_of_visible (by omega) (by omega)
  · split at h
    · exact Text.isBlank_of_visible (by omega) (by omega)
    · split at h
      · exact Text.isBlank_of_visible (by omega) (by omega)
      · cases h

/-! ## Writing -/

/-- a digit or a point -/
def isNumeric (c : Char) : Bool := isDigit c || c == '.'

theorem isBlank_of_isNumeric {c : Char} (h : isNumeric c = true) : Text.isBlank c = false := by
  simp only [isNumeric, isDigit, Bool.or_eq_true, Bool.and_eq_true, decide_eq_true_eq, beq_iff_eq] at h
  rcases h with ⟨hlow, hhigh⟩ | rfl
  · exact Text.isBlank_of_visible (by omega) (by omega)
  · decide

/-- a text of digits and points, with at least one of them -/
structure Numeric (cs : List Char) : Prop where
  nonempty : cs ≠ []
  chars : ∀ c ∈ cs, isNumeric c = true

/-- digits, and a point with more digits if there is one -/
inductive Positional (digit : Char → Bool) : List Char → Prop
  | whole {digits : List Char} (hne : digits ≠ []) (hdigits : ∀ c ∈ digits, digit c = true) : Positional digit digits
  | point {digits places : List Char} (hne : digits ≠ []) (hdigits : ∀ c ∈ digits, digit c = true)
      (hplaces : places ≠ []) (hmore : ∀ c ∈ places, digit c = true) : Positional digit (digits ++ '.' :: places)

theorem Positional.mono {digit wider : Char → Bool} (hmono : ∀ c, digit c = true → wider c = true) {cs : List Char}
    (h : Positional digit cs) : Positional wider cs := by
  cases h with
  | whole hne hdigits => exact .whole hne fun c hc => hmono c (hdigits c hc)
  | point hne hdigits hplaces hmore =>
    exact .point hne (fun c hc => hmono c (hdigits c hc)) hplaces fun c hc => hmono c (hmore c hc)

theorem Positional.ne_nil {digit : Char → Bool} {cs : List Char} (h : Positional digit cs) : cs ≠ [] := by
  cases h with
  | whole hne _ => exact hne
  | point => simp

theorem Positional.chars {digit : Char → Bool} {cs : List Char} (h : Positional digit cs) {c : Char} (hc : c ∈ cs) :
    digit c = true ∨ c = '.' := by
  cases h with
  | whole _ hdigits => exact .inl (hdigits c hc)
  | point _ hdigits _ hmore =>
    rcases List.mem_append.1 hc with hc | hc
    · exact .inl (hdigits c hc)
    · rcases List.mem_cons.1 hc with rfl | hc
      · exact .inr rfl
      · exact .inl (hmore c hc)

theorem Positional.numeric {cs : List Char} (h : Positional isDigit cs) : Numeric cs where
  nonempty := h.ne_nil
  chars := by
    intro c hc
    rcases h.chars hc with hdigit | rfl
    · simp [isNumeric, hdigit]
    · rfl

theorem isDigit_of_mem_toDigits {n : Nat} {c : Char} (h : c ∈ Nat.toDigits 10 n) : isDigit c = true := by
  have hdigit := Nat.isDigit_of_mem_toDigits (by decide) (by decide) h
  simp only [Char.isDigit, Bool.and_eq_true, decide_eq_true_eq] at hdigit
  have hlow : 48 ≤ c.toNat := hdigit.1
  have hhigh : c.toNat ≤ 57 := hdigit.2
  simp [isDigit, hlow, hhigh]

theorem positional_toDigits (n : Nat) : Positional isDigit (Nat.toDigits 10 n) :=
  .whole Nat.toDigits_ne_nil fun _ hc => isDigit_of_mem_toDigits hc

theorem digitValue?_digitChar : ∀ d < 10, digitValue? 10 (Nat.digitChar d) = some d := by decide

theorem digitsValue?_toDigits (n : Nat) : digitsValue? 10 (Nat.toDigits 10 n) = some n := by
  induction n using Nat.strongRecOn with
  | ind n ih =>
    have hconcat (cs : List Char) (k : Nat) (hcs : digitsValue? 10 cs = some k) :
        digitsValue? 10 (cs ++ [Nat.digitChar (n % 10)]) = some (k * 10 + n % 10) := by
      rw [digitsValue?_concat, hcs, digitValue?_digitChar (n % 10) (Nat.mod_lt n (by decide))]
    by_cases hsmall : n < 10
    · have hlast := hconcat [] 0 rfl
      rw [Nat.mod_eq_of_lt hsmall, Nat.zero_mul, Nat.zero_add] at hlast
      rw [Nat.toDigits_of_lt_base hsmall]
      exact hlast
    · rw [Nat.toDigits_of_base_le (by decide) (Nat.le_of_not_lt hsmall), hconcat _ _ (ih (n / 10) (by omega))]
      congr 1
      omega

/-- a point inside of a run of digits -/
theorem positional_pointed {ds : List Char} (hds : ∀ c ∈ ds, isDigit c = true) {places : Nat} (hsome : 0 < places)
    (hfewer : places < ds.length) :
    Positional isDigit (ds.take (ds.length - places) ++ '.' :: ds.drop (ds.length - places)) := by
  refine .point ?_ (fun c hc => hds c (List.mem_of_mem_take hc)) ?_ fun c hc => hds c (List.mem_of_mem_drop hc)
  · rw [← List.length_pos_iff, List.length_take]
    omega
  · rw [← List.length_pos_iff, List.length_drop]
    omega

/-- the positional text of a decimal has a digit before the point, and as many as it needs after it -/
theorem positional_positional (d : Decimal) : Positional isDigit d.positional := by
  have hzeros : ∀ n, ∀ c ∈ List.replicate n '0', isDigit c = true := by
    intro n c hc
    rw [List.eq_of_mem_replicate hc]
    rfl
  unfold Decimal.positional
  dsimp only
  split
  · split
    · exact .whole (by simp) (hzeros 1)
    · refine .whole (by simp) ?_
      exact List.forall_mem_append.2 ⟨fun _ hc => isDigit_of_mem_toDigits hc, hzeros _⟩
  · rename_i hnegative
    apply positional_pointed
    · exact List.forall_mem_append.2 ⟨hzeros _, fun _ hc => isDigit_of_mem_toDigits hc⟩
    · omega
    · rw [List.length_append, List.length_replicate]
      omega

theorem toList_natText (n : Nat) : (toString n).toList = Nat.toDigits 10 n := Nat.toList_repr

theorem toList_intText_ofNat (k : Nat) : (toString (Int.ofNat k)).toList = Nat.toDigits 10 k := toList_natText k

theorem toList_intText_negSucc (k : Nat) : (toString (Int.negSucc k)).toList = '-' :: Nat.toDigits 10 (k + 1) := by
  show ("-" ++ toString (k + 1)).toList = _
  rw [String.toList_append, toList_natText]
  rfl

theorem positional_toString {n : Int} (h : 0 ≤ n) : Positional isDigit (toString n).toList := by
  obtain ⟨k, rfl⟩ := Int.eq_ofNat_of_zero_le h
  rw [show (toString (k : Int)).toList = _ from toList_intText_ofNat k]
  exact positional_toDigits k

namespace Binary64

theorem saturate64_nonneg_iff {n : Int} : 0 ≤ saturate64 n ↔ 0 ≤ n := by
  have hbound : (0 : Int) < Int.pow 2 63 := by decide
  unfold saturate64
  generalize Int.pow 2 63 = bound at hbound ⊢
  omega

/-- **Text of a number.** A finite number that is not negative is written with digits, and a point with more digits if
there is one. -/
theorem scriptText_positional {negative : Bool} {m : Nat} {q : Int} (h : negative = true → m = 0) :
    Positional isDigit (Binary64.finite negative m q).scriptText := by
  unfold scriptText
  cases negative with
  | true =>
    have hzero : (Binary64.finite true m q).toInt? = some 0 := by
      rw [h rfl]
      simp [toInt?, ratio]
      split <;> simp
    rw [hzero]
    exact positional_toString (Int.le_refl 0)
  | false =>
    cases hint : (Binary64.finite false m q).toInt? with
    | none => exact positional_positional _
    | some n =>
      have hn : 0 ≤ n := by
        unfold toInt? at hint
        dsimp only at hint
        split at hint
        · cases hint
          exact Int.natCast_nonneg _
        · cases hint
      dsimp only
      split
      · exact positional_toString (saturate64_nonneg_iff.2 hn)
      · exact positional_positional _

end Binary64

theorem chars_toDigits (n : Nat) : ∀ c ∈ Nat.toDigits 10 n, isNumberChar c = true :=
  fun _ hc => isNumberChar_of_isDigit (isDigit_of_mem_toDigits hc)

theorem chars_natText (n : Nat) : ∀ c ∈ (toString n).toList, isNumberChar c = true := by
  rw [toList_natText]
  exact chars_toDigits n

theorem chars_intText (n : Int) : ∀ c ∈ (toString n).toList, isNumberChar c = true := by
  cases n with
  | ofNat k => exact chars_natText k
  | negSucc k =>
    rw [toList_intText_negSucc]
    exact List.forall_mem_cons.2 ⟨by decide, chars_toDigits _⟩

theorem chars_signed (negative : Bool) {text : List Char} (h : ∀ c ∈ text, isNumberChar c = true) :
    ∀ c ∈ Binary64.signed negative text, isNumberChar c = true := by
  unfold Binary64.signed
  split
  · exact List.forall_mem_cons.2 ⟨by decide, h⟩
  · exact h

theorem chars_positional (d : Decimal) : ∀ c ∈ d.positional, isNumberChar c = true := by
  intro c hc
  rcases (positional_positional d).chars hc with hdigit | rfl
  · exact isNumberChar_of_isDigit hdigit
  · decide

theorem chars_plain (x : Binary64) : ∀ c ∈ x.plain, isNumberChar c = true := by
  cases x with
  | nan => exact List.all_eq_true.1 (show "NaN".toList.all isNumberChar = true by decide)
  | infinite s => exact chars_signed s (List.all_eq_true.1 (by decide))
  | finite s m q => exact chars_signed s (chars_positional _)

theorem chars_fixed (places : Nat) (x : Binary64) : ∀ c ∈ x.fixed places, isNumberChar c = true := by
  cases x with
  | nan => exact List.all_eq_true.1 (show "NaN".toList.all isNumberChar = true by decide)
  | infinite s => exact chars_signed s (List.all_eq_true.1 (by decide))
  | finite s m q => exact chars_signed s (chars_positional _)

theorem chars_scriptText (x : Binary64) : ∀ c ∈ x.scriptText, isNumberChar c = true := by
  unfold Binary64.scriptText
  split
  · split
    · exact chars_intText _
    · exact chars_plain x
  · exact chars_plain x

end TsxWorkbench.Number
