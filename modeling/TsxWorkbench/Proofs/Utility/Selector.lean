/-
Names in selectors. A class stands in a selector with escapes. A reader of CSS resolves them (`readName`), so it finds
the class as it was written and stops before what follows.

- `readName_escapeClass`: the name at the start of a selector is the class.
- `escapeClass_append_inj`: a class and what follows it are told apart, line breaks or not.
- `escapeClass_decoded`: escapes are resolved to the class, and classes have selectors of their own.
- `passes_escapeClass`: a class has no brace and no semicolon in its selector that is not escaped.
-/
import TsxWorkbench.Utility.Stylesheet
import TsxWorkbench.Proofs.Utility.Enclosure

namespace TsxWorkbench.Utility

open Number Text

variable {c : Char} {cs raw rest name : List Char}

/-! ## Reading -/

/-- where a reader is in a name: in no escape, after a backslash, or in a code of so many digits -/
inductive Escape where
  | none
  | opened
  | code (digits value : Nat)
deriving DecidableEq, Repr

/-- the character of a code; codes without one stand for the replacement character -/
def codeChar (value : Nat) : Char := if value ≠ 0 ∧ value.isValidChar then Char.ofNat value else '\uFFFD'

/-- a name, reversed, when its last escape ends -/
def Escape.close (name : List Char) : Escape → List Char
  | .code _ value => codeChar value :: name
  | _ => name

/-- one more digit of a code, which has six at most -/
def Escape.digit? (c : Char) : Escape → Option Escape
  | .code digits value =>
    if digits < 6 then (digitValue? 16 c).map fun d => .code (digits + 1) (16 * value + d) else Option.none
  | _ => Option.none

/-- the name at the start of a text and what follows it; `name` is what was read before, reversed -/
def readNameFrom (escape : Escape) (name : List Char) : List Char → List Char × List Char
  | [] => ((escape.close name).reverse, [])
  | c :: cs =>
    if escape = .opened then
      match digitValue? 16 c with
      | some d => readNameFrom (.code 1 d) name cs
      | none => if isBreak c then (name.reverse, '\\' :: c :: cs) else readNameFrom .none (c :: name) cs
    else
      match escape.digit? c with
      | some code => readNameFrom code name cs
      | none =>
        if c = '\\' then readNameFrom .opened (escape.close name) cs
        else if isPlainInSelector c then readNameFrom .none (c :: escape.close name) cs
        else if escape ≠ .none ∧ (c = ' ' ∨ c = '\t' ∨ isBreak c) then readNameFrom .none (escape.close name) cs
        else ((escape.close name).reverse, c :: cs)

/-- the name at the start of a text, with escapes resolved, and what follows it -/
def readName (text : List Char) : List Char × List Char := readNameFrom .none [] text

/-! ## Escapes -/

theorem code_of_isPlainInSelector (h : isPlainInSelector c = true) : (48 ≤ c.toNat ∧ c.toNat ≤ 57) ∨
    (65 ≤ c.toNat ∧ c.toNat ≤ 90) ∨ c.toNat = 95 ∨ (97 ≤ c.toNat ∧ c.toNat ≤ 122) ∨ 128 ≤ c.toNat ∨ c.toNat = 45 := by
  simp only [isPlainInSelector, Bool.or_eq_true, decide_eq_true_eq] at h
  rcases h with ((h | rfl) | rfl) | h
  · rcases code_of_digitValue? h (Nat.le_refl _) with h | h | h
    · exact .inl h
    · exact .inr (.inl h)
    · exact .inr (.inr (.inr (.inl h)))
  · exact .inr (.inr (.inr (.inr (.inr rfl))))
  · exact .inr (.inr (.inl rfl))
  · exact .inr (.inr (.inr (.inr (.inl h))))

theorem isNeutral_of_isPlainInSelector (h : isPlainInSelector c = true) : isNeutral c = true := by
  rcases code_of_isPlainInSelector h with h | h | h | h | h | h
  · exact isNeutral_of_code (.inl h)
  · exact isNeutral_of_code (.inr (.inl h))
  · exact isNeutral_of_code (.inr (.inr (.inl h)))
  · exact isNeutral_of_code (.inr (.inr (.inr (.inl h))))
  · exact isNeutral_of_code (.inr (.inr (.inr (.inr (.inl h)))))
  · exact isNeutral_of_code (.inr (.inr (.inr (.inr (.inr (.inr (.inl h)))))))

/-- only characters that are no digits of a code are escaped by a backslash alone -/
theorem digitValue?_of_escaped (h : isPlainInSelector c = false) : digitValue? 16 c = none := by
  simp only [isPlainInSelector, Bool.or_eq_false_iff] at h
  have halnum : digitValue? 36 c = none := by simpa [isAsciiAlphanumeric] using h.1.1.1
  unfold digitValue? at halnum ⊢
  dsimp only at halnum ⊢
  split_ifs at halnum ⊢ <;> first | rfl | omega

theorem readNameFrom_plain (h : isPlainInSelector c = true) :
    readNameFrom .none name (c :: rest) = readNameFrom .none (c :: name) rest := by
  have hslash : c ≠ '\\' := by
    rintro rfl
    exact absurd h (by decide)
  simp [readNameFrom, Escape.digit?, Escape.close, h, hslash]

theorem readNameFrom_escaped (h : isPlainInSelector c = false) (hbreak : isBreak c = false) :
    readNameFrom .none name ('\\' :: c :: rest) = readNameFrom .none (c :: name) rest := by
  simp [readNameFrom, Escape.digit?, Escape.close, digitValue?_of_escaped h, hbreak]

/-- a digit at the start is read back from its code -/
theorem readNameFrom_digit (h : isDigit c = true) :
    readNameFrom .none name ('\\' :: '3' :: c :: ' ' :: rest) = readNameFrom .none (c :: name) rest := by
  simp only [isDigit, Bool.and_eq_true, decide_eq_true_eq] at h
  have hvalue : digitValue? 16 c = some (c.toNat - 48) := by
    have hlt : c.toNat - 48 < 16 := by omega
    simp [digitValue?, h, hlt]
  have hchar : codeChar (16 * 3 + (c.toNat - 48)) = c := by
    have hcode : 16 * 3 + (c.toNat - 48) = c.toNat := by omega
    have hzero : c.toNat ≠ 0 := by omega
    rw [codeChar, hcode, if_pos ⟨hzero, c.valid⟩, Char.ofNat_toNat]
  have hthree : digitValue? 16 '3' = some 3 := by decide
  have hspace : digitValue? 16 ' ' = none ∧ isPlainInSelector ' ' = false := by decide
  simp [readNameFrom, Escape.digit?, Escape.close, hvalue, hchar, hthree, hspace]

theorem readNameFrom_escapeRest (h : ∀ c ∈ cs, isBreak c = false) :
    readNameFrom .none name (escapeRest cs ++ rest) = readNameFrom .none (cs.reverse ++ name) rest := by
  induction cs generalizing name with
  | nil => rfl
  | cons c cs ih =>
    rw [List.forall_mem_cons] at h
    have hunfold : escapeRest (c :: cs) = (if isPlainInSelector c then [c] else ['\\', c]) ++ escapeRest cs :=
      List.flatMap_cons
    rw [hunfold, List.append_assoc, List.reverse_cons, List.append_assoc]
    split
    · rename_i hplain
      exact (readNameFrom_plain hplain).trans (ih h.2)
    · rename_i hplain
      exact (readNameFrom_escaped (Bool.eq_false_iff.2 hplain) h.1).trans (ih h.2)

theorem escapeClass_cons (c : Char) (cs : List Char) : escapeClass (c :: cs) =
    if isDigit c then '\\' :: '3' :: c :: ' ' :: escapeRest cs else escapeRest (c :: cs) :=
  rfl

/-- a text that does not go on with a name before it -/
def EndsName (rest : List Char) : Prop := ∀ c ∈ rest.head?, isPlainInSelector c = false ∧ c ≠ '\\'

/-- **Names.** The name at the start of the selector of a class is the class, and what follows is left as it is if it
does not go on with the name. -/
theorem readName_escapeClass (hraw : ∀ c ∈ raw, isBreak c = false) (hrest : EndsName rest) :
    readName (escapeClass raw ++ rest) = (raw, rest) := by
  have hends (name : List Char) : readNameFrom .none name rest = (name.reverse, rest) := by
    cases rest with
    | nil => rfl
    | cons c rest =>
      obtain ⟨hplain, hslash⟩ := hrest c rfl
      simp [readNameFrom, Escape.digit?, Escape.close, hplain, hslash]
  unfold readName
  cases raw with
  | nil => exact hends []
  | cons c cs =>
    rw [escapeClass_cons]
    split
    · rename_i hdigit
      rw [List.forall_mem_cons] at hraw
      have hread : readNameFrom .none [] ('\\' :: '3' :: c :: ' ' :: (escapeRest cs ++ rest)) = _ :=
        (readNameFrom_digit hdigit).trans (readNameFrom_escapeRest hraw.2)
      exact hread.trans (by rw [hends]; simp)
    · rw [readNameFrom_escapeRest hraw, hends]
      simp

/-! ## Distinct classes -/

variable {cs' raw' rest' : List Char}

theorem escapeRest_cons_plain (h : isPlainInSelector c = true) (cs : List Char) :
    escapeRest (c :: cs) = c :: escapeRest cs := by
  simp [escapeRest, h]

theorem escapeRest_cons_escaped (h : isPlainInSelector c = false) (cs : List Char) :
    escapeRest (c :: cs) = '\\' :: c :: escapeRest cs := by
  simp [escapeRest, h]

/-- the text of a class that is not empty goes on with a name before it -/
theorem not_endsName_escapeRest (c : Char) (cs rest : List Char) : ¬EndsName (escapeRest (c :: cs) ++ rest) := by
  intro hends
  cases hplain : isPlainInSelector c with
  | true =>
    rw [escapeRest_cons_plain hplain] at hends
    exact absurd (hends c rfl).1 (by simp [hplain])
  | false =>
    rw [escapeRest_cons_escaped hplain] at hends
    exact absurd rfl (hends '\\' rfl).2

theorem escapeRest_append_inj (hrest : EndsName rest) (hrest' : EndsName rest')
    (h : escapeRest cs ++ rest = escapeRest cs' ++ rest') : cs = cs' ∧ rest = rest' := by
  have hslash : isPlainInSelector '\\' = false := by decide
  induction cs generalizing cs' with
  | nil =>
    cases cs' with
    | nil => exact ⟨rfl, h⟩
    | cons d ds =>
      have hends : EndsName (escapeRest (d :: ds) ++ rest') := h ▸ hrest
      exact absurd hends (not_endsName_escapeRest d ds rest')
  | cons c cs ih =>
    cases cs' with
    | nil =>
      have hends : EndsName (escapeRest (c :: cs) ++ rest) := h.symm ▸ hrest'
      exact absurd hends (not_endsName_escapeRest c cs rest)
    | cons d ds =>
      cases hc : isPlainInSelector c with
      | true =>
        cases hd : isPlainInSelector d with
        | true =>
          rw [escapeRest_cons_plain hc, escapeRest_cons_plain hd] at h
          obtain ⟨rfl, htail⟩ := List.cons.inj h
          obtain ⟨rfl, hends⟩ := ih htail
          exact ⟨rfl, hends⟩
        | false =>
          rw [escapeRest_cons_plain hc, escapeRest_cons_escaped hd] at h
          rw [(List.cons.inj h).1, hslash] at hc
          cases hc
      | false =>
        cases hd : isPlainInSelector d with
        | true =>
          rw [escapeRest_cons_escaped hc, escapeRest_cons_plain hd] at h
          rw [← (List.cons.inj h).1, hslash] at hd
          cases hd
        | false =>
          rw [escapeRest_cons_escaped hc, escapeRest_cons_escaped hd] at h
          obtain ⟨rfl, htail⟩ := List.cons.inj (List.cons.inj h).2
          obtain ⟨rfl, hends⟩ := ih htail
          exact ⟨rfl, hends⟩

/-- a code of a digit is not an escape by a backslash alone -/
theorem digit_ne_escapeRest (hrest' : EndsName rest') (tail : List Char) :
    '\\' :: '3' :: tail ≠ escapeRest cs' ++ rest' := by
  intro h
  cases cs' with
  | nil =>
    have hends : EndsName ('\\' :: '3' :: tail) := h ▸ hrest'
    exact (hends '\\' rfl).2 rfl
  | cons d ds =>
    cases hd : isPlainInSelector d with
    | true =>
      rw [escapeRest_cons_plain hd] at h
      rw [← (List.cons.inj h).1] at hd
      exact absurd hd (by decide)
    | false =>
      rw [escapeRest_cons_escaped hd] at h
      rw [← (List.cons.inj (List.cons.inj h).2).1] at hd
      exact absurd hd (by decide)

/-- **Classes are told apart.** Two classes of one text are one class, and what follows them is the same. -/
theorem escapeClass_append_inj (hrest : EndsName rest) (hrest' : EndsName rest')
    (h : escapeClass raw ++ rest = escapeClass raw' ++ rest') : raw = raw' ∧ rest = rest' := by
  -- a class that starts with no digit is escaped character by character
  have hplain : ∀ raw : List Char, (∀ c ∈ raw.head?, isDigit c = false) → escapeClass raw = escapeRest raw := by
    intro raw hdigit
    cases raw with
    | nil => rfl
    | cons c cs => rw [escapeClass_cons, if_neg (by simp [hdigit c rfl])]
  have hcode : ∀ (c : Char) (cs : List Char), isDigit c = true →
      escapeClass (c :: cs) = '\\' :: '3' :: c :: ' ' :: escapeRest cs := fun c cs hc => by
    rw [escapeClass_cons, if_pos hc]
  by_cases hraw : ∀ c ∈ raw.head?, isDigit c = false
  · by_cases hraw' : ∀ c ∈ raw'.head?, isDigit c = false
    · rw [hplain raw hraw, hplain raw' hraw'] at h
      exact escapeRest_append_inj hrest hrest' h
    · push Not at hraw'
      obtain ⟨d, hd, hdigit⟩ := hraw'
      obtain ⟨ds, rfl⟩ := List.head?_eq_some_iff.1 hd
      rw [hplain raw hraw, hcode d ds (by simpa using hdigit)] at h
      exact absurd h.symm (digit_ne_escapeRest hrest _)
  · push Not at hraw
    obtain ⟨c, hc, hdigit⟩ := hraw
    obtain ⟨cs, rfl⟩ := List.head?_eq_some_iff.1 hc
    rw [hcode c cs (by simpa using hdigit)] at h
    by_cases hraw' : ∀ c ∈ raw'.head?, isDigit c = false
    · rw [hplain raw' hraw'] at h
      exact absurd h (digit_ne_escapeRest hrest' _)
    · push Not at hraw'
      obtain ⟨d, hd, hdigit'⟩ := hraw'
      obtain ⟨ds, rfl⟩ := List.head?_eq_some_iff.1 hd
      rw [hcode d ds (by simpa using hdigit')] at h
      simp only [List.cons_append, List.cons.injEq, true_and] at h
      obtain ⟨rfl, htail⟩ := h
      obtain ⟨rfl, hends⟩ := escapeRest_append_inj hrest hrest' htail
      exact ⟨rfl, hends⟩

theorem EndsName.append (hrest : EndsName rest) (hrest' : EndsName rest') : EndsName (rest ++ rest') := by
  cases rest with
  | nil => exact hrest'
  | cons c cs => exact hrest

/-- pseudo-classes do not go on with the name before them -/
theorem endsName_states {states : List String} (h : ∀ state ∈ states, state ∈ pseudoClasses.map Prod.snd) :
    EndsName (states.flatMap String.toList) := by
  have hcolon : ∀ state ∈ pseudoClasses.map Prod.snd, state.toList.head? = some ':' := by decide +kernel
  induction states with
  | nil => exact fun _ hc => by cases hc
  | cons state states ih =>
    rw [List.forall_mem_cons] at h
    have hstate : EndsName state.toList := by
      rw [EndsName, hcolon state h.1]
      rintro _ ⟨⟩
      decide
    exact hstate.append (ih h.2)

/-- the selector of a class is the class with pseudo-classes after it -/
theorem selector_of_compileClass? {rule : Rule} (h : compileClass? raw = some rule) :
    ∃ suffix, EndsName suffix ∧ rule.selector = '.' :: (escapeClass raw ++ suffix) := by
  obtain ⟨variants, -, -, -, hvariants, -, -, -, hselector, -⟩ := compileClass?_shape h
  obtain ⟨-, states, hstates, hpseudo⟩ := Variants.ofNames_cases hvariants
  exact ⟨variants.pseudo, hpseudo ▸ endsName_states hstates, hselector⟩

/-- **Escapes.** A reader of CSS that resolves the escapes of a class without line breaks has the class again, and has
then read all of it; different classes are escaped differently, and their selectors are different, whatever
pseudo-classes are in them. -/
theorem escapeClass_decoded :
    (∀ raw : List Char, (∀ c ∈ raw, isBreak c = false) → readName (escapeClass raw) = (raw, [])) ∧
      Function.Injective escapeClass ∧
      ∀ raw raw' rule rule', compileClass? raw = some rule → compileClass? raw' = some rule' → raw ≠ raw' →
        rule.selector ≠ rule'.selector := by
  have hnothing : EndsName [] := fun _ hc => by cases hc
  refine ⟨fun raw hraw => ?_, fun raw raw' h => ?_, fun raw raw' rule rule' h h' hne hsame => hne ?_⟩
  · have hname := readName_escapeClass hraw hnothing
    rwa [List.append_nil] at hname
  · refine (escapeClass_append_inj hnothing hnothing ?_).1
    rw [h]
  · obtain ⟨suffix, hsuffix, hselector⟩ := selector_of_compileClass? h
    obtain ⟨suffix', hsuffix', hselector'⟩ := selector_of_compileClass? h'
    rw [hselector, hselector'] at hsame
    exact (escapeClass_append_inj hsuffix hsuffix' (List.cons.inj hsame).2).1

/-- a digit before a letter that could go on with its code, and characters that are escaped or not ASCII -/
def escapedName : List Char := "2a b\t\x01[é:\\]".toList

def activeRule : Rule := ⟨.always, ".active\\:p-1:active".toList, [⟨"padding", "0.25rem".toList⟩]⟩

def plainRule : Rule := ⟨.always, ".p-1".toList, [⟨"padding", "0.25rem".toList⟩]⟩

theorem escapeClass_decoded_digit :
    readName "\\32 a\\ b\\\t\\\x01\\[é\\:\\\\\\]".toList = (escapedName, []) ∧
      activeRule.selector ≠ plainRule.selector := by
  have hescaped : escapeClass escapedName = "\\32 a\\ b\\\t\\\x01\\[é\\:\\\\\\]".toList := by decide +kernel
  have hactive : compileClass? "active:p-1".toList = some activeRule := by decide +kernel
  have hplain : compileClass? "p-1".toList = some plainRule := by decide +kernel
  have hbreaks : escapedName.any isBreak = false := by decide +kernel
  constructor
  · rw [← hescaped]
    exact escapeClass_decoded.1 escapedName fun c hc => Bool.eq_false_iff.2 (List.any_eq_false.1 hbreaks c hc)
  · exact escapeClass_decoded.2.2 _ _ _ _ hactive hplain (by decide +kernel)

/-! ## Nesting -/

namespace Nest

theorem start_passes_escaped (h : isBreak c = false) : start.passes ['\\', c] = some start := by
  have hstop : isStop '\\' = false := by decide
  simp [passes, step, start, outside, hstop, h]

theorem passes_escapeRest (h : ∀ c ∈ cs, isBreak c = false) : start.passes (escapeRest cs) = some start := by
  induction cs with
  | nil => rfl
  | cons c cs ih =>
    rw [List.forall_mem_cons] at h
    have hfirst : start.passes (if isPlainInSelector c then [c] else ['\\', c]) = some start := by
      split
      · rename_i hplain
        exact start_passes_neutral (List.forall_mem_singleton.2 (isNeutral_of_isPlainInSelector hplain))
      · exact start_passes_escaped h.1
    exact (passes_append_of_some hfirst _).trans (ih h.2)

theorem passes_escapeClass (h : ∀ c ∈ raw, isBreak c = false) : start.passes (escapeClass raw) = some start := by
  cases raw with
  | nil => rfl
  | cons c cs =>
    rw [escapeClass_cons]
    split
    · rename_i hdigit
      simp only [isDigit, Bool.and_eq_true, decide_eq_true_eq] at hdigit
      have hneutral : Neutral [c, ' '] :=
        List.forall_mem_cons.2 ⟨isNeutral_of_code (.inl hdigit), List.forall_mem_singleton.2 (by decide)⟩
      have hcode : start.passes (['\\', '3'] ++ [c, ' ']) = some start :=
        (passes_append_of_some (start_passes_escaped (by decide)) _).trans (start_passes_neutral hneutral)
      rw [List.forall_mem_cons] at h
      exact (passes_append_of_some hcode (escapeRest cs)).trans (passes_escapeRest h.2)
    · exact passes_escapeRest h

end Nest

end TsxWorkbench.Utility
