/-
Shapes of classes. A class belongs to the category of a field by what stands after the name that the field writes
(`matchesField_namedClass`). There the value is named or stands in square brackets; in brackets only some forms count:
colours as hexadecimal digits, functions or words (`isBracketColour_iff`), lengths as numbers with a unit
(`isMeasure_iff`), weights as digits.
-/
import TsxWorkbench.Edit.ClassToken
import TsxWorkbench.Proofs.Number.ScriptText
import TsxWorkbench.Proofs.Utility.Naming

namespace TsxWorkbench.Edit

open Number Text Utility

namespace StyleField

/-- name of the classes that a field writes -/
def className : StyleField → String
  | .backgroundColor => "bg"
  | .textColor => "text"
  | .borderColor => "border"
  | .fontSize => "text"
  | .fontWeight => "font"
  | .borderWidth => "border"
  | .borderRadius => "rounded"

end StyleField

/-! ## In brackets -/

/-- what the editor takes for a colour in brackets -/
inductive ArbitraryColour : List Char → Prop
  | hex {digits : List Char} (hdigits : ∀ c ∈ digits, isHexDigit c = true) (hlow : 3 ≤ digits.length)
      (hhigh : digits.length ≤ 8) : ArbitraryColour ('#' :: digits)
  | word {letters : List Char} (hne : letters ≠ []) (hletters : ∀ c ∈ letters, isSmallLetter c = true) :
      ArbitraryColour letters
  | function {name : String} (hname : name ∈ colourFunctions) {arguments : List Char} (hclosed : ']' ∉ arguments) :
      ArbitraryColour (name.toList ++ arguments ++ [')'])

theorem isBracketColour_iff {inner : List Char} : isBracketColour inner = true ↔ ArbitraryColour inner := by
  unfold isBracketColour
  rw [Bool.or_eq_true, Bool.or_eq_true]
  constructor
  · rintro ((hhex | hword) | hfunction)
    · split at hhex
      · simp only [Bool.and_eq_true, decide_eq_true_eq, List.all_eq_true] at hhex
        exact .hex hhex.2 hhex.1.1 hhex.1.2
      · cases hhex
    · simp only [Bool.and_eq_true, Bool.not_eq_true', List.isEmpty_eq_false_iff, List.all_eq_true] at hword
      exact .word hword.1 hword.2
    · obtain ⟨name, hname, harguments⟩ := List.any_eq_true.1 hfunction
      split at harguments
      · rename_i arguments hsplit
        obtain ⟨rest, hrest, hend⟩ := Option.bind_eq_some_iff.1 hsplit
        rw [stripStart?_eq_some_iff.1 hrest, stripEnd?_eq_some_iff.1 hend, ← List.append_assoc]
        exact .function hname (by simpa using harguments)
      · cases harguments
  · intro h
    cases h with
    | hex hdigits hlow hhigh => exact .inl (.inl (by simpa [hlow, hhigh] using hdigits))
    | word hne hletters => exact .inl (.inr (by simpa [hne] using hletters))
    | @function name hname arguments hclosed =>
      refine .inr (List.any_eq_true.2 ⟨name, hname, ?_⟩)
      have hstart : stripStart? name.toList (name.toList ++ arguments ++ [')']) = some (arguments ++ [')']) :=
        stripStart?_eq_some_iff.2 (List.append_assoc _ _ _)
      rw [hstart, Option.bind_some, stripEnd?_append]
      simpa using hclosed

/-- a number with one of some units -/
def Measure (units : List String) (inner : List Char) : Prop :=
  ∃ number, ∃ unit ∈ units, Positional isDecimalDigit number ∧ inner = number ++ unit.toList

/-- only digits stand in a run of digits -/
theorem notMem_of_digits {c : Char} (hc : isDecimalDigit c = false) {digits : List Char}
    (h : ∀ d ∈ digits, isDecimalDigit d = true) : c ∉ digits := by
  intro hmem
  rw [h c hmem] at hc
  cases hc

theorem isPlainNumber_iff {cs : List Char} : isPlainNumber cs = true ↔ Positional isDecimalDigit cs := by
  have hpoint : isDecimalDigit '.' = false := by decide
  unfold isPlainNumber
  constructor
  · intro h
    split at h
    · rename_i hsplit
      simp only [Bool.and_eq_true, Bool.not_eq_true', List.isEmpty_eq_false_iff, List.all_eq_true] at h
      obtain ⟨⟨⟨hne, hdigits⟩, hplaces⟩, hmore⟩ := h
      rw [eq_of_splitFirst? hsplit]
      exact .point hne hdigits hplaces hmore
    · simp only [Bool.and_eq_true, Bool.not_eq_true', List.isEmpty_eq_false_iff, List.all_eq_true] at h
      exact .whole h.1 h.2
  · intro h
    cases h with
    | whole hne hdigits =>
      rw [splitFirst?_eq_none (notMem_of_digits hpoint hdigits)]
      simpa [hne] using hdigits
    | point hne hdigits hplaces hmore =>
      rw [splitFirst?_append (notMem_of_digits hpoint hdigits)]
      simp only [Bool.and_eq_true, Bool.not_eq_true', List.isEmpty_eq_false_iff, List.all_eq_true]
      exact ⟨⟨⟨hne, hdigits⟩, hplaces⟩, hmore⟩

theorem bracketed?_eq_some_iff {cs inner : List Char} : bracketed? cs = some inner ↔ cs = bracketed inner := by
  unfold bracketed?
  rw [Option.bind_eq_some_iff]
  constructor
  · rintro ⟨rest, hrest, hend⟩
    rw [stripStart?_eq_some_iff.1 hrest, stripEnd?_eq_some_iff.1 hend]
    rfl
  · rintro rfl
    exact ⟨inner ++ [']'], stripStart?_eq_some_iff.2 rfl, stripEnd?_append inner [']']⟩

theorem isMeasure_iff {units : List String} {cs : List Char} :
    isMeasure units cs = true ↔ ∃ inner, cs = bracketed inner ∧ Measure units inner := by
  unfold isMeasure
  constructor
  · intro h
    split at h
    · rename_i inner hinner
      obtain ⟨unit, hunit, hnumber⟩ := List.any_eq_true.1 h
      rw [Option.getD_eq_iff] at hnumber
      obtain hsome | ⟨-, hno⟩ := hnumber
      · obtain ⟨number, hnumber, hplain⟩ := Option.map_eq_some_iff.1 hsome
        refine ⟨inner, bracketed?_eq_some_iff.1 hinner, number, unit, hunit, isPlainNumber_iff.1 hplain, ?_⟩
        exact stripEnd?_eq_some_iff.1 hnumber
      · cases hno
    · cases h
  · rintro ⟨inner, rfl, number, unit, hunit, hnumber, rfl⟩
    rw [bracketed?_eq_some_iff.2 rfl]
    refine List.any_eq_true.2 ⟨unit, hunit, ?_⟩
    rw [stripEnd?_append]
    exact isPlainNumber_iff.2 hnumber

/-! ## Colours -/

/-- an opacity of one to three digits -/
def Opacity (digits : List Char) : Prop :=
  1 ≤ digits.length ∧ digits.length ≤ 3 ∧ ∀ c ∈ digits, isDecimalDigit c = true

/-- nothing, or something behind a slash -/
def Suffix (p : List Char → Prop) (suffix : List Char) : Prop := suffix = [] ∨ ∃ tail, suffix = '/' :: tail ∧ p tail

theorem isColourBase_iff {base : List Char} : isColourBase base = true ↔
    isColourName base = true ∨ ∃ inner, base = bracketed inner ∧ ArbitraryColour inner := by
  unfold isColourBase
  rw [Bool.or_eq_true]
  refine or_congr_right ?_
  constructor
  · intro h
    rw [Option.getD_eq_iff] at h
    obtain hsome | ⟨-, hno⟩ := h
    · obtain ⟨inner, hinner, hcolour⟩ := Option.map_eq_some_iff.1 hsome
      exact ⟨inner, bracketed?_eq_some_iff.1 hinner, isBracketColour_iff.1 hcolour⟩
    · cases hno
  · rintro ⟨inner, rfl, hcolour⟩
    rw [bracketed?_eq_some_iff.2 rfl]
    exact isBracketColour_iff.2 hcolour

theorem isColour_iff {v : List Char} : isColour v = true ↔
    ∃ base suffix, v = base ++ suffix ∧ isColourBase base = true ∧ Suffix Opacity suffix := by
  unfold isColour
  rw [Bool.or_eq_true]
  constructor
  · rintro (h | h)
    · exact ⟨v, [], (List.append_nil v).symm, h, .inl rfl⟩
    · split at h
      · rename_i base opacity hsplit
        simp only [Bool.and_eq_true, decide_eq_true_eq, List.all_eq_true] at h
        obtain ⟨⟨⟨hbase, hlow⟩, hhigh⟩, hdigits⟩ := h
        exact ⟨base, _, eq_of_splitLast? hsplit, hbase, .inr ⟨opacity, rfl, hlow, hhigh, hdigits⟩⟩
      · cases h
  · rintro ⟨base, suffix, rfl, hbase, rfl | ⟨digits, rfl, hlow, hhigh, hdigits⟩⟩
    · exact .inl (by rwa [List.append_nil])
    · right
      rw [splitLast?_append base (notMem_of_digits (by decide) hdigits)]
      simp only [Bool.and_eq_true, decide_eq_true_eq, List.all_eq_true]
      exact ⟨⟨⟨hbase, hlow⟩, hhigh⟩, hdigits⟩

/-- **Colours in brackets.** They count in the forms of the editor only. -/
theorem isColour_bracketed_iff {inner : List Char} : isColour (bracketed inner) = true ↔ ArbitraryColour inner := by
  rw [isColour_iff]
  constructor
  · rintro ⟨base, suffix, heq, hbase, hsuffix⟩
    rcases hsuffix with rfl | ⟨digits, rfl, hlow, -, hdigits⟩
    · rw [List.append_nil] at heq
      subst heq
      rcases isColourBase_iff.1 hbase with hname | ⟨_, hinner, hcolour⟩
      · exact absurd rfl (isColourName_solid hname List.mem_cons_self).2.2
      · rwa [bracketed_inj hinner]
    · -- an opacity ends in a digit, not in the closing bracket
      exfalso
      rcases List.eq_nil_or_concat digits with rfl | ⟨front, last, rfl⟩
      · exact absurd hlow (by decide)
      · rw [bracketed, List.concat_eq_append, ← List.cons_append, ← List.cons_append, ← List.append_assoc] at heq
        have hlast := (List.append_inj' heq rfl).2
        cases hlast
        have hno : ']' ∉ front ++ [']'] := notMem_of_digits (by decide) (List.concat_eq_append ▸ hdigits)
        exact hno (List.mem_append_right front List.mem_cons_self)
  · intro h
    exact ⟨_, [], (List.append_nil _).symm, isColourBase_iff.2 (.inr ⟨inner, rfl, h⟩), .inl rfl⟩

/-! ## Sizes, weights and widths -/

/-- a text size is a name or a length in brackets -/
theorem isSizeBase_cases {base : List Char} (h : isSizeBase base = true) :
    ('[' ∉ base ∧ '/' ∉ base) ∨ ∃ inner, base = bracketed inner ∧ Measure ["px", "rem", "em"] inner := by
  unfold isSizeBase at h
  rw [Bool.or_eq_true, Bool.or_eq_true] at h
  rcases h with (hname | hstep) | hmeasure
  · have hplain : ∀ s ∈ ["xs", "sm", "base", "lg", "xl"], '[' ∉ s.toList ∧ '/' ∉ s.toList := by decide
    have hbase := hplain _ (List.contains_iff_mem.1 hname)
    rw [String.toList_ofList] at hbase
    exact .inl hbase
  · split at hstep
    · rename_i d
      simp only [Bool.and_eq_true, decide_eq_true_eq] at hstep
      left
      simp only [List.mem_cons, List.not_mem_nil, or_false, not_or]
      refine ⟨⟨?_, by decide, by decide⟩, ?_, by decide, by decide⟩ <;> rintro rfl <;> exact absurd hstep (by decide)
    · cases hstep
  · exact .inr (isMeasure_iff.1 hmeasure)

theorem slash_notMem_measure {units : List String} (hunits : ∀ u ∈ units, '/' ∉ u.toList) {inner : List Char}
    (h : Measure units inner) : '/' ∉ bracketed inner := by
  obtain ⟨number, unit, hunit, hnumber, rfl⟩ := h
  have hno : '/' ∉ number := fun hmem => absurd (hnumber.chars hmem) (by decide)
  simp [bracketed, hno, hunits unit hunit]

theorem isTextSize_iff {v : List Char} : isTextSize v = true ↔ ∃ base suffix, v = base ++ suffix ∧
    isSizeBase base = true ∧ Suffix (fun height => height ≠ [] ∧ ∀ c ∈ height, isBlank c = false) suffix := by
  unfold isTextSize
  constructor
  · intro h
    split at h
    · rename_i base height hsplit
      simp only [Bool.and_eq_true, Bool.not_eq_true', List.isEmpty_eq_false_iff, List.any_eq_false] at h
      obtain ⟨⟨hbase, hne⟩, hsolid⟩ := h
      exact ⟨base, _, eq_of_splitFirst? hsplit, hbase, .inr ⟨height, rfl, hne, fun c hc => by simpa using hsolid c hc⟩⟩
    · exact ⟨v, [], (List.append_nil v).symm, h, .inl rfl⟩
  · rintro ⟨base, suffix, rfl, hbase, hsuffix⟩
    have hslash : '/' ∉ base := by
      rcases isSizeBase_cases hbase with ⟨-, hslash⟩ | ⟨inner, rfl, hinner⟩
      · exact hslash
      · exact slash_notMem_measure (by decide) hinner
    rcases hsuffix with rfl | ⟨height, rfl, hne, hsolid⟩
    · rw [List.append_nil, splitFirst?_eq_none hslash]
      exact hbase
    · rw [splitFirst?_append hslash]
      simpa [hbase, hne] using hsolid

theorem isWeight_iff {v : List Char} : isWeight v = true ↔ (fontWeights.lookup (String.ofList v)).isSome = true ∨
    ∃ inner, v = bracketed inner ∧ inner ≠ [] ∧ ∀ c ∈ inner, isDecimalDigit c = true := by
  unfold isWeight
  rw [Bool.or_eq_true]
  refine or_congr_right ?_
  constructor
  · intro h
    split at h
    · rename_i inner hinner
      simp only [Bool.and_eq_true, Bool.not_eq_true', List.isEmpty_eq_false_iff, List.all_eq_true] at h
      exact ⟨inner, bracketed?_eq_some_iff.1 hinner, h⟩
    · cases h
  · rintro ⟨inner, rfl, hne, hdigits⟩
    rw [bracketed?_eq_some_iff.2 rfl]
    simpa [hne] using hdigits

theorem isWidth_iff {v : List Char} : isWidth v = true ↔ String.ofList v ∈ ["0", "2", "4", "8"] ∨
    ∃ inner, v = bracketed inner ∧ Measure ["px"] inner := by
  unfold isWidth
  rw [Bool.or_eq_true, List.contains_iff_mem, isMeasure_iff]

/-! ## Classes -/

/-- values that a class with the name of a field has in the category of the field -/
def StyleField.takes (f : StyleField) (v : List Char) : Bool :=
  match f with
  | .backgroundColor | .textColor | .borderColor => isColour v
  | .fontSize => isTextSize v
  | .fontWeight => isWeight v
  | .borderWidth => isWidth v
  | .borderRadius => !v.isEmpty && !v.any isBlank

/-- the exclamation mark in front of a class does not matter -/
theorem matchesField_eq (f : StyleField) (t : List Char) : matchesField f t =
    match f with
    | .backgroundColor => afterName "bg" isColour (unmarked t)
    | .textColor => afterName "text" isColour (unmarked t)
    | .borderColor => afterName "border" isColour (unmarked t)
    | .fontSize => afterName "text" isTextSize (unmarked t)
    | .fontWeight => afterName "font" isWeight (unmarked t)
    | .borderWidth => unmarked t == "border".toList || afterName "border" isWidth (unmarked t)
    | .borderRadius => unmarked t == "rounded".toList ||
        afterName "rounded" (fun cs => !cs.isEmpty && !cs.any isBlank) (unmarked t) := by
  cases t with
  | nil => rfl
  | cons c cs =>
    by_cases hc : c = '!'
    · subst hc
      rfl
    · cases f <;> simp [matchesField, unmarked, hc]

theorem matchesField_congr {s t : List Char} (h : unmarked s = unmarked t) (f : StyleField) :
    matchesField f s = matchesField f t := by
  rw [matchesField_eq, matchesField_eq, h]

theorem afterName_namedClass (name : String) (p : List Char → Bool) (v : List Char) :
    afterName name p (namedClass name v) = p v := by
  unfold afterName
  rw [stripStart?_eq_some_iff.2 (rfl : namedClass name v = _ ++ v)]
  rfl

/-- a name with a hyphen after it is not the name alone -/
theorem namedClass_ne (name : String) (v : List Char) : namedClass name v ≠ name.toList := by
  intro h
  rw [namedClass, toList_hyphen, List.append_assoc] at h
  simpa using congrArg List.length h

theorem unmarked_namedClass (f : StyleField) (v : List Char) :
    unmarked (namedClass f.className v) = namedClass f.className v := by
  cases f <;> rfl

/-- **The category of a class** that has the name of a field is decided by its value. -/
theorem matchesField_namedClass (f : StyleField) (v : List Char) :
    matchesField f (namedClass f.className v) = f.takes v := by
  have hborder : (namedClass "border" v == "border".toList) = false := beq_false_of_ne (namedClass_ne _ v)
  have hrounded : (namedClass "rounded" v == "rounded".toList) = false := beq_false_of_ne (namedClass_ne _ v)
  rw [matchesField_eq, unmarked_namedClass]
  cases f with
  | borderWidth => simp only [StyleField.className, StyleField.takes, hborder, afterName_namedClass, Bool.false_or]
  | borderRadius => simp only [StyleField.className, StyleField.takes, hrounded, afterName_namedClass, Bool.false_or]
  | _ => exact afterName_namedClass _ _ v

end TsxWorkbench.Edit
