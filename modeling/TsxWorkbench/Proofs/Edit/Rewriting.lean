/-
Class lists that are rewritten more than once. A class that the editor writes is its own (`Own`) if it is one word and
in the category of its field, so that the next update of the field takes it out.
- `updateClasses_idem`: if all new classes are own, to rewrite a class list again changes nothing.
- `formatToken_own_iff`: the class of a value is own, unless the value is a colour that is neither hexadecimal nor a
  name and stands in brackets in a form that the editor does not know (`Recoverable`).
- `unrecoverable_piles_up`: classes of other colours are not taken out again.
-/
import TsxWorkbench.Proofs.Edit.ClassCategory

namespace TsxWorkbench.Edit

open Number Text Utility

variable {f : StyleField} {t inner : List Char}

/-- one class that a later update of its field takes out -/
structure Own (f : StyleField) (t : List Char) : Prop where
  nonempty : t ≠ []
  solid : ∀ c ∈ t, isBlank c = false
  matched : matchesField f t = true

/-! ## Rewriting -/

/-- a class that no field of an update takes out -/
def untouched (updates : List (StyleField × Option (List Char))) (t : List Char) : Bool :=
  !updates.any fun u => matchesField u.1 t

section Words

variable {updates : List (StyleField × Option (List Char))} (hown : ∀ u ∈ updates, ∀ t, u.2 = some t → Own u.1 t)
include hown

/-- **Words of an updated list.** They are the classes that the update leaves, and then its own. -/
theorem words_updateClasses (classes : List Char) : words (updateClasses classes updates) =
    (words classes).filter (untouched updates) ++ updates.filterMap Prod.snd := by
  unfold updateClasses
  dsimp only
  rw [words_joined]
  · rfl
  · intro w hw
    rcases List.mem_append.1 hw with hkept | hnew
    · have hword := List.mem_of_mem_filter hkept
      exact ⟨ne_nil_of_mem_words hword, isBlank_of_mem_words hword⟩
    · obtain ⟨u, hu, hw⟩ := List.mem_filterMap.1 hnew
      exact ⟨(hown u hu w hw).nonempty, (hown u hu w hw).solid⟩

/-- own classes are taken out by their update -/
theorem filter_untouched_new : (updates.filterMap Prod.snd).filter (untouched updates) = [] := by
  rw [List.filter_eq_nil_iff]
  intro t ht
  obtain ⟨u, hu, ht⟩ := List.mem_filterMap.1 ht
  rw [untouched, List.any_eq_true.2 ⟨u, hu, (hown u hu t ht).matched⟩]
  decide

/-- **Rewriting again.** Classes that are kept are kept again, and own classes make room for themselves. -/
theorem updateClasses_idem (classes : List Char) :
    updateClasses (updateClasses classes updates) updates = updateClasses classes updates := by
  have hagain : (words (updateClasses classes updates)).filter (untouched updates) =
      (words classes).filter (untouched updates) := by
    rw [words_updateClasses hown, List.filter_append, filter_untouched_new hown, List.append_nil, List.filter_filter]
    simp only [Bool.and_self]
  exact congrArg (fun kept => List.intercalate [' '] (kept ++ updates.filterMap Prod.snd)) hagain

end Words

/-! ## Brackets -/

theorem isBlank_of_mem_className : ∀ f ∈ StyleField.all, ∀ c ∈ (f.className ++ "-").toList, isBlank c = false := by
  have hall : ∀ f ∈ StyleField.all, ((f.className ++ "-").toList.all fun c => !isBlank c) = true := by decide
  exact fun f hf => isBlank_of_all (hall f hf)

/-- a value without blanks in the category makes an own class -/
theorem namedClass_own_iff {v : List Char} :
    Own f (namedClass f.className v) ↔ (∀ c ∈ v, isBlank c = false) ∧ f.takes v = true := by
  rw [← matchesField_namedClass]
  constructor
  · exact fun h => ⟨fun c hc => h.solid c (List.mem_append_right _ hc), h.matched⟩
  · rintro ⟨hsolid, hmatched⟩
    refine ⟨?_, ?_, hmatched⟩
    · rw [namedClass, toList_hyphen]
      simp
    · exact List.forall_mem_append.2 ⟨isBlank_of_mem_className f f.mem_all, hsolid⟩

theorem isBlank_of_mem_bracketed : (∀ c ∈ bracketed inner, isBlank c = false) ↔ ∀ c ∈ inner, isBlank c = false := by
  have hopen : isBlank '[' = false := by decide
  have hclose : isBlank ']' = false := by decide
  simp [bracketed, hopen, hclose, or_imp, forall_and]

theorem bracketed_own (hinner : f.InBrackets inner) (hsolid : ∀ c ∈ inner, isBlank c = false) :
    Own f (namedClass f.className (bracketed inner)) := by
  have hbrackets := isBlank_of_mem_bracketed.2 hsolid
  rw [← List.append_nil (bracketed inner)] at hbrackets ⊢
  exact namedClass_own_iff.2 ⟨hbrackets, takes_bracketed hinner .nil hbrackets⟩

/-! ## Lengths and weights -/

theorem listedClasses_own {property : String} (h : (t, property) ∈ listedClasses) (hf : f.cssProperty = property) :
    Own f t := by
  have hlisted : ∀ e ∈ listedClasses, ∀ f ∈ StyleField.all, f.cssProperty = e.2 →
      e.1 ≠ [] ∧ e.1.all (fun c => !isBlank c) = true ∧ matchesField f e.1 = true := by
    decide +kernel
  obtain ⟨hne, hsolid, hmatched⟩ := hlisted _ h f f.mem_all hf
  exact ⟨hne, isBlank_of_all hsolid, hmatched⟩

theorem isDecimalDigit_of_isDigit (c : Char) (h : isDigit c = true) : isDecimalDigit c = true :=
  List.any_eq_true.2 ⟨(0x30, 0x39), by decide, h⟩

/-- a length is an own class, whether a table has it or not -/
theorem lengthToken_own {table : List (Nat × String)}
    (htable : ∀ row ∈ table, (row.2.toList, f.cssProperty) ∈ listedClasses)
    (hunit : ∀ inner, Measure ["px"] inner → f.InBrackets inner) {v : StyleValue} {x : Binary64}
    (h : pixels? v = some x) : Own f ((scaled? table x).getD (pixelToken f.className x)) := by
  cases hscaled : scaled? table x with
  | some t =>
    obtain ⟨row, hrow, rfl⟩ := List.mem_map.1 (mem_of_scaled? hscaled)
    exact listedClasses_own (htable row hrow) rfl
  | none =>
    have hnumber := positional_of_pixels? h
    rw [Option.getD_none, pixelToken_eq]
    apply bracketed_own
    · exact hunit _ ⟨_, "px", by simp, hnumber.mono isDecimalDigit_of_isDigit, rfl⟩
    · have hpx : ∀ c ∈ "px".toList, isBlank c = false := isBlank_of_all (by decide)
      exact List.forall_mem_append.2 ⟨fun c hc => isBlank_of_isNumeric (hnumber.numeric.chars c hc), hpx⟩

/-! ## Colours -/

theorem hex_own {text hex : List Char} (hf : f.InBrackets = ArbitraryColour) (h : normalizeHex? text = some hex) :
    Own f (namedClass f.className (bracketed hex)) := by
  obtain ⟨digits, rfl, hdigits, hlength⟩ := normalizeHex?_digits h
  apply bracketed_own
  · rw [hf]
    exact .hex hdigits (by omega) (by omega)
  · exact List.forall_mem_cons.2 ⟨by decide, fun c hc => isBlank_of_isHexDigit (hdigits c hc)⟩

theorem colourName_own {v : List Char} (hf : f.takes = isColour) (h : isColourName v = true) :
    Own f (namedClass f.className v) := by
  refine namedClass_own_iff.2 ⟨?_, ?_⟩
  · intro c hc
    rcases isColourName_chars h hc with hletter | hdigit | rfl
    · simp only [isSmallLetter, Bool.and_eq_true, decide_eq_true_eq, Char.le_def, UInt32.le_iff_toNat_le] at hletter
      exact isBlank_of_visible (Nat.le_trans (by decide) hletter.1) (Nat.le_trans hletter.2 (by decide))
    · exact isBlank_of_isNumeric (by simp [isNumeric, hdigit])
    · decide
  · rw [hf]
    exact isColour_iff.2 ⟨v, [], (List.append_nil v).symm, isColourBase_iff.2 (.inl h), .nil⟩

theorem isBlank_of_mem_underscored {v : List Char} :
    (∀ c ∈ underscored v, isBlank c = false) ↔ ∀ c ∈ v, isBlank c = true → c = ' ' := by
  unfold underscored
  rw [List.forall_mem_map]
  refine forall₂_congr fun c _ => ?_
  by_cases hc : c = ' '
  · have hunderscore : isBlank '_' = false := by decide
    simp [hc, hunderscore]
  · simp [hc]

theorem underscored_own_iff {v : List Char} (hf : f.takes = isColour) :
    Own f (namedClass f.className (bracketed (underscored v))) ↔
      ArbitraryColour (underscored v) ∧ ∀ c ∈ v, isBlank c = true → c = ' ' := by
  rw [namedClass_own_iff, hf, isColour_bracketed_iff, isBlank_of_mem_bracketed, isBlank_of_mem_underscored, and_comm]

/-- a colour text that is hexadecimal or a name, or that the editor knows in brackets once its spaces are encoded; other
blanks are not encoded -/
def RecoverableColour (text : List Char) : Prop :=
  (normalizeHex? text).isSome = true ∨ isColourName (trim text) = true ∨
    (ArbitraryColour (underscored (trim text)) ∧ ∀ c ∈ trim text, isBlank c = true → c = ' ')

/-- a value whose class the editor takes out again -/
def Recoverable (f : StyleField) (v : StyleValue) : Prop :=
  f.colourName?.isSome = true → ∀ text, v = .text text → RecoverableColour text

/-- the class of a colour is own if and only if its text is one that the editor takes out again -/
theorem colourToken_own_iff {text : List Char} (hbrackets : f.InBrackets = ArbitraryColour)
    (htakes : f.takes = isColour) (h : colourToken? f.className text = some t) : Own f t ↔ RecoverableColour text := by
  have htrim : normalizeHex? (trim text) = normalizeHex? text := by
    unfold normalizeHex?
    rw [trim_trim]
  unfold colourToken? at h
  dsimp only at h
  rw [htrim] at h
  split at h
  · cases h
  split at h
  · rename_i hex hhex
    cases h
    rw [bracketToken_eq]
    exact iff_of_true (hex_own hbrackets hhex) (.inl (by rw [hhex]; rfl))
  · rename_i hnone
    split at h
    · rename_i hname
      cases h
      exact iff_of_true (colourName_own htakes hname) (.inr (.inl hname))
    · rename_i hname
      cases h
      rw [bracketToken_eq]
      refine (underscored_own_iff htakes).trans ⟨fun h => .inr (.inr h), ?_⟩
      rintro (hhex | hyes | h)
      · rw [hnone] at hhex
        cases hhex
      · exact absurd hyes hname
      · exact h

/-! ## All fields -/

/-- **Own classes.** The class of a value is one word in the category of its field if and only if the value is no colour
or a colour that the editor takes out again. -/
theorem formatToken_own_iff {v : StyleValue} (h : formatToken? f v = some t) : Own f t ↔ Recoverable f v := by
  have hcolour (hname : f.colourName?.isSome = true) (hbrackets : f.InBrackets = ArbitraryColour)
      (htakes : f.takes = isColour) (htoken : v.text?.bind (colourToken? f.className) = some t) :
      Own f t ↔ Recoverable f v := by
    obtain ⟨text, htext, htoken⟩ := Option.bind_eq_some_iff.1 htoken
    cases v with
    | number x => cases htext
    | text s =>
      cases htext
      refine (colourToken_own_iff hbrackets htakes htoken).trans ⟨?_, fun h => h hname _ rfl⟩
      rintro h - _ ⟨⟩
      exact h
  have hother (hnone : f.colourName? = none) (hown : Own f t) : Own f t ↔ Recoverable f v := by
    refine iff_of_true hown ?_
    rw [Recoverable, hnone]
    rintro ⟨⟩
  cases f with
  | backgroundColor => exact hcolour rfl rfl rfl h
  | textColor => exact hcolour rfl rfl rfl h
  | borderColor => exact hcolour rfl rfl rfl h
  | fontSize =>
    obtain ⟨x, hx, rfl⟩ := Option.map_eq_some_iff.1 h
    refine hother rfl (lengthToken_own (by decide) ?_ hx)
    rintro _ ⟨number, unit, hunit, hmeasure⟩
    exact ⟨number, unit, List.mem_cons.2 (.inl (List.mem_singleton.1 hunit)), hmeasure⟩
  | borderWidth =>
    obtain ⟨x, hx, rfl⟩ := Option.map_eq_some_iff.1 h
    exact hother rfl (lengthToken_own (by decide) (fun _ => id) hx)
  | borderRadius =>
    obtain ⟨x, hx, rfl⟩ := Option.map_eq_some_iff.1 h
    exact hother rfl (lengthToken_own (f := .borderRadius) (by decide) (fun _ _ => trivial) hx)
  | fontWeight => exact hother rfl (listedClasses_own (weightToken_mem h) rfl)

/-- **Updates do not pile up.** The class of a value is one word in the category of its field if and only if the value
is recoverable, and to write the classes of recoverable values again changes nothing. -/
theorem formatToken_recovered {v : StyleValue} (h : formatToken? f v = some t)
    {updates : List (StyleField × Option (List Char))}
    (hupdates : ∀ u ∈ updates, ∀ s, u.2 = some s → ∃ w, formatToken? u.1 w = some s ∧ Recoverable u.1 w)
    (classes : List Char) : (Own f t ↔ Recoverable f v) ∧
      updateClasses (updateClasses classes updates) updates = updateClasses classes updates := by
  refine ⟨formatToken_own_iff h, updateClasses_idem ?_ classes⟩
  intro u hu s hs
  obtain ⟨w, htoken, hrecoverable⟩ := hupdates u hu s hs
  exact (formatToken_own_iff htoken).2 hrecoverable

/-- a colour function replaces a class of its own kind, and does so once -/
theorem formatToken_recovered_rgb :
    matchesField .textColor "text-[rgb(1_2_3)]".toList = true ∧
      updateClasses (updateClasses "p-4 text-red-500".toList [(.textColor, some "text-[rgb(1_2_3)]".toList)])
          [(.textColor, some "text-[rgb(1_2_3)]".toList)] =
        updateClasses "p-4 text-red-500".toList [(.textColor, some "text-[rgb(1_2_3)]".toList)] := by
  have htoken : formatToken? .textColor (.text "rgb(1 2 3)".toList) = some "text-[rgb(1_2_3)]".toList := by
    decide +kernel
  have hrecoverable : Recoverable .textColor (.text "rgb(1 2 3)".toList) := by
    rintro - _ ⟨⟩
    have hblanks : ((trim "rgb(1 2 3)".toList).all fun c => !isBlank c || c == ' ') = true := by decide
    refine .inr (.inr ⟨isBracketColour_iff.1 (by decide), fun c hc hblank => ?_⟩)
    simpa [hblank] using List.all_eq_true.1 hblanks c hc
  have hupdates : ∀ u ∈ [(StyleField.textColor, some "text-[rgb(1_2_3)]".toList)], ∀ s, u.2 = some s →
      ∃ w, formatToken? u.1 w = some s ∧ Recoverable u.1 w := by
    intro u hu s hs
    rw [List.mem_singleton.1 hu] at hs ⊢
    cases hs
    exact ⟨_, htoken, hrecoverable⟩
  obtain ⟨hown, hagain⟩ := formatToken_recovered htoken hupdates "p-4 text-red-500".toList
  exact ⟨(hown.2 hrecoverable).matched, hagain⟩

/-- **Classes that are not taken out again.** The class of a variable is not in the category of its field, so a second
update puts another one beside it; and a tab is written into a class as it is, which makes two words of it. -/
theorem unrecoverable_piles_up :
    formatToken? .backgroundColor (.text "var(--brand)".toList) = some "bg-[var(--brand)]".toList ∧
    matchesField .backgroundColor "bg-[var(--brand)]".toList = false ∧
    updateClasses "bg-[var(--brand)]".toList [(.backgroundColor, some "bg-[var(--brand)]".toList)] =
      "bg-[var(--brand)] bg-[var(--brand)]".toList ∧
    formatToken? .textColor (.text "rgb(1,\t2,3)".toList) = some "text-[rgb(1,\t2,3)]".toList ∧
    words "text-[rgb(1,\t2,3)]".toList = ["text-[rgb(1,".toList, "2,3)]".toList] := by
  decide +kernel

end TsxWorkbench.Edit
