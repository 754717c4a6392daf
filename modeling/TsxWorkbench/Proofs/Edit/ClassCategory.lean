/-
Classes that set the property of a field, and the category of the field.
- `resolved_cases`: a class that sets the property is `sr-only`, or has the name that the field writes and a value that
  is a name of a table, a colour or something in brackets (`StyleField.Sets`).
- `takes_iff_editorForm`: such a value is in the category if and only if it is a name, or its brackets hold one of the
  forms that the editor knows (`EditorForm`).
- `matchesField_compiled_iff`: so an update of a field takes out every class without variants that sets its property,
  but for `sr-only` and brackets in other forms.
-/
import TsxWorkbench.Proofs.Edit.ClassShape
import TsxWorkbench.Proofs.Edit.ClassToken

namespace TsxWorkbench.Edit

open Number Text Utility

/-! ## Values that set a property -/

namespace StyleField

/-- names of values that are no colours -/
def valueNames : StyleField → List String
  | .fontSize => fontSizes.map Prod.fst
  | .fontWeight => fontWeights.map Prod.fst
  | .borderWidth => ["0", "2", "4", "8"]
  | .borderRadius => radii.map Prod.fst
  | _ => []

/-- what is left of a value if its class sets the property of a field -/
def Sets (f : StyleField) (v : List Char) : Prop :=
  match f with
  | .backgroundColor | .textColor | .borderColor => (colour? v).isSome = true
  | _ => v ∈ f.valueNames.map String.toList ∨ ∃ inner, v = bracketed inner

end StyleField

variable {f : StyleField} {utility v : List Char} {found : List Declaration} {d : Declaration}

/-- a property of a field is set under one name only, and this name has no negative form -/
theorem className_of_maySet {name : String} (h : MaySet name f.cssProperty) :
    name = f.className ∧ name ∉ negatable := by
  have hrows : ∀ row ∈ settable, ∀ f ∈ StyleField.all, f.cssProperty ∈ row.2 →
      row.1 = f.className ∧ row.1 ∉ negatable := by
    decide +kernel
  obtain ⟨row, hrow, rfl, hproperty⟩ := h
  exact hrows row hrow f f.mem_all hproperty

/-- the only keyword that sets a property of a field -/
theorem keyword?_property (h : keyword? utility = some found) (hd : d ∈ found)
    (hproperty : d.property = f.cssProperty) : utility = "sr-only".toList := by
  have hrows : ∀ row ∈ keywordRows, row.1 = "sr-only".toList ∨ ∀ f ∈ StyleField.all, f.cssProperty ∉ row.2 := by
    decide +kernel
  rcases hrows _ (keyword?_row h) with hname | hnone
  · exact hname
  · exact absurd (List.mem_map.2 ⟨d, hd, hproperty⟩) (hnone f f.mem_all)

/-! ### Readers of values -/

theorem named?_mem {table : List (String × String)} {w : List Char} (h : named? table v = some w) :
    v ∈ (table.map Prod.fst).map String.toList := by
  obtain ⟨value, hvalue, -⟩ := Option.map_eq_some_iff.1 h
  rw [List.map_map]
  exact mem_map_fst_of_lookup hvalue

theorem textUtility?_cases (h : textUtility? v = some found) (hd : d ∈ found) :
    (d.property = "color" ∧ StyleField.textColor.Sets v) ∨ (d.property ≠ "color" ∧ StyleField.fontSize.Sets v) := by
  have hcolour (h : (colour? v).map (fun c => [(⟨"color", c⟩ : Declaration)]) = some found) :
      d.property = "color" ∧ StyleField.textColor.Sets v := by
    obtain ⟨c, hc, rfl⟩ := Option.map_eq_some_iff.1 h
    rw [List.mem_singleton.1 hd]
    exact ⟨rfl, Option.isSome_iff_exists.2 ⟨c, hc⟩⟩
  unfold textUtility? at h
  split at h
  · rename_i hlookup
    cases h
    right
    refine ⟨?_, .inl ?_⟩
    · simp only [declare, List.cons_append, List.nil_append, List.mem_cons, List.not_mem_nil, or_false] at hd
      rcases hd with rfl | rfl
      · exact show "font-size" ≠ "color" by decide
      · exact show "line-height" ≠ "color" by decide
    · have hmem := mem_map_fst_of_lookup hlookup
      rwa [StyleField.valueNames, List.map_map]
  · split at h
    · rename_i harb
      split at h
      · cases h
        right
        rw [List.mem_singleton.1 hd]
        obtain ⟨inner, hinner, -⟩ := eq_bracketed_of_arbitrary? harb
        exact ⟨show "font-size" ≠ "color" by decide, .inr ⟨inner, hinner⟩⟩
      · exact .inl (hcolour h)
    · exact .inl (hcolour h)

theorem fontUtility?_weight (h : fontUtility? v = some found) (hd : d ∈ found) (hweight : d.property = "font-weight") :
    StyleField.fontWeight.Sets v := by
  unfold fontUtility? at h
  split at h
  · exact .inl (named?_mem ‹_›)
  · split at h
    · cases h
      rw [List.mem_singleton.1 hd] at hweight
      exact absurd hweight (show "font-family" ≠ "font-weight" by decide)
    · obtain ⟨_, harb, -⟩ := Option.map_eq_some_iff.1 h
      obtain ⟨inner, hinner, -⟩ := eq_bracketed_of_arbitrary? harb
      exact .inr ⟨inner, hinner⟩

theorem borderWidth?_sets {width : List Char} (h : borderWidth? (some v) = some width) :
    StyleField.borderWidth.Sets v := by
  unfold borderWidth? at h
  dsimp only at h
  split at h
  · rename_i hstep
    exact .inl (List.mem_map.2 ⟨_, List.contains_iff_mem.1 hstep, String.toList_ofList⟩)
  · split at h
    · rename_i harb
      obtain ⟨inner, hinner, -⟩ := eq_bracketed_of_arbitrary? harb
      exact .inr ⟨inner, hinner⟩
    · cases h

theorem radius?_sets {radius : List Char} (h : radius? (some v) = some radius) : StyleField.borderRadius.Sets v := by
  unfold radius? at h
  dsimp only at h
  rw [Option.orElse_eq_orElse, Option.orElse_eq_or, Option.or_eq_some_iff] at h
  rcases h with hname | ⟨-, harb⟩
  · exact .inl (named?_mem hname)
  · obtain ⟨inner, hinner, -⟩ := eq_bracketed_of_arbitrary? harb
    exact .inr ⟨inner, hinner⟩

/-- a value that is read under the name of a field and sets its property -/
theorem sets_of_resolved (hkeyword : keyword? utility = none) (hname : splitName? utility = some (f.className, some v))
    (hfound : resolve? utility false = some found) (hd : d ∈ found) (hproperty : d.property = f.cssProperty) :
    f.Sets v := by
  cases f with
  | backgroundColor =>
    rw [resolve?_bg hkeyword hname] at hfound
    obtain ⟨c, hc, -⟩ := Option.map_eq_some_iff.1 hfound
    exact Option.isSome_iff_exists.2 ⟨c, hc⟩
  | textColor =>
    rw [resolve?_text hkeyword hname] at hfound
    rcases textUtility?_cases hfound hd with ⟨-, hsets⟩ | ⟨hother, -⟩
    · exact hsets
    · exact absurd hproperty hother
  | borderColor =>
    rw [resolve?_border hkeyword hname] at hfound
    split at hfound
    · cases hfound
      rw [List.mem_singleton.1 hd] at hproperty
      exact absurd hproperty (show "border-width" ≠ "border-color" by decide)
    · obtain ⟨c, hc, -⟩ := Option.map_eq_some_iff.1 hfound
      exact Option.isSome_iff_exists.2 ⟨c, hc⟩
  | fontSize =>
    rw [resolve?_text hkeyword hname] at hfound
    rcases textUtility?_cases hfound hd with ⟨hcolour, -⟩ | ⟨-, hsets⟩
    · exact absurd (hcolour.symm.trans hproperty) (show "color" ≠ "font-size" by decide)
    · exact hsets
  | fontWeight =>
    rw [resolve?_font hkeyword hname] at hfound
    exact fontUtility?_weight hfound hd hproperty
  | borderWidth =>
    rw [resolve?_border hkeyword hname] at hfound
    split at hfound
    · exact borderWidth?_sets ‹_›
    · obtain ⟨c, hc, rfl⟩ := Option.map_eq_some_iff.1 hfound
      rw [List.mem_singleton.1 hd] at hproperty
      exact absurd hproperty (show "border-color" ≠ "border-width" by decide)
  | borderRadius =>
    rw [resolve?_rounded hkeyword hname] at hfound
    obtain ⟨radius, hradius, -⟩ := Option.map_eq_some_iff.1 hfound
    exact radius?_sets hradius

/-- a name without a value that sets a property of a field -/
theorem unvalued_of_resolved (hkeyword : keyword? utility = none)
    (hname : splitName? utility = some (f.className, none)) (hfound : resolve? utility false = some found)
    (hd : d ∈ found) (hproperty : d.property = f.cssProperty) :
    f = .borderWidth ∨ f = .borderRadius := by
  have hneeds (h : f.className ∈ ["bg", "text", "font"]) : False := by
    rw [resolve?_unvalued h hkeyword hname] at hfound
    cases hfound
  cases f with
  | borderWidth => exact .inl rfl
  | borderRadius => exact .inr rfl
  | borderColor =>
    rw [resolve?_border_alone hkeyword hname] at hfound
    cases hfound
    rw [List.mem_singleton.1 hd] at hproperty
    exact absurd hproperty (show "border-width" ≠ "border-color" by decide)
  | _ => exact (hneeds (by decide)).elim

/-- **Classes that set a property of a field.** They are `sr-only`, the name that the field writes alone, or this name
with a value that sets the property. -/
theorem resolved_cases {negative : Bool} (hfound : resolve? utility negative = some found) (hd : d ∈ found)
    (hproperty : d.property = f.cssProperty) : negative = false ∧ (utility = "sr-only".toList ∨
      (utility = f.className.toList ∧ (f = .borderWidth ∨ f = .borderRadius)) ∨
        ∃ v, utility = namedClass f.className v ∧ f.Sets v) := by
  rcases resolve?_cases hfound with ⟨hpositive, hkeyword⟩ | ⟨name, value, hkeyword, hname, hnegative, hset⟩
  · exact ⟨hpositive, .inl (keyword?_property hkeyword hd hproperty)⟩
  · obtain ⟨rfl, hnegatable⟩ := className_of_maySet (hproperty ▸ hset d hd)
    have hpositive : negative = false := Bool.eq_false_iff.2 fun h => hnegatable (hnegative h)
    subst hpositive
    refine ⟨rfl, .inr ?_⟩
    rcases valueAfter?_cases (valueAfter?_of_splitName? hname) with ⟨halone, rfl⟩ | ⟨v, hvalue, rfl⟩
    · exact .inl ⟨halone, unvalued_of_resolved (hkeyword rfl) hname hfound hd hproperty⟩
    · exact .inr ⟨v, hvalue, sets_of_resolved (hkeyword rfl) hname hfound hd hproperty⟩

/-! ## Forms of the editor -/

namespace StyleField

/-- contents of brackets that the editor knows -/
def InBrackets (f : StyleField) (inner : List Char) : Prop :=
  match f with
  | .backgroundColor | .textColor | .borderColor => ArbitraryColour inner
  | .fontSize => Measure ["px", "rem", "em"] inner
  | .fontWeight => inner ≠ [] ∧ ∀ c ∈ inner, isDecimalDigit c = true
  | .borderWidth => Measure ["px"] inner
  | .borderRadius => True

/-- what may stand behind a slash: an opacity, or any line height -/
def AfterSlash (f : StyleField) (tail : List Char) : Prop :=
  match f with
  | .backgroundColor | .textColor | .borderColor => Opacity tail
  | .fontSize => tail ≠ []
  | _ => False

end StyleField

/-- a name or brackets that the editor knows, with or without an opacity or a line height -/
inductive EditorForm (f : StyleField) : List Char → Prop
  | named {base suffix : List Char} (hopen : '[' ∉ base) (hslash : '/' ∉ base) (hsuffix : Suffix f.AfterSlash suffix) :
      EditorForm f (base ++ suffix)
  | bracketed {inner suffix : List Char} (hinner : f.InBrackets inner) (hsuffix : Suffix f.AfterSlash suffix) :
      EditorForm f (bracketed inner ++ suffix)

theorem Suffix.nil {p : List Char → Prop} : Suffix p [] := .inl rfl

theorem Suffix.eq_nil {p : List Char → Prop} {suffix : List Char} (hp : ∀ tail, ¬p tail) (h : Suffix p suffix) :
    suffix = [] := by
  rcases h with rfl | ⟨tail, -, htail⟩
  · rfl
  · exact absurd htail (hp tail)

/-- brackets are no name with a suffix, whatever follows them -/
theorem bracketed_ne_named {p : List Char → Prop} {inner base suffix : List Char} (hopen : '[' ∉ base)
    (hsuffix : Suffix p suffix) (after : List Char) : bracketed inner ++ after ≠ base ++ suffix := by
  intro heq
  cases base with
  | nil =>
    rcases hsuffix with rfl | ⟨tail, rfl, -⟩
    · cases heq
    · cases heq
  | cons c cs =>
    obtain ⟨rfl, -⟩ := List.cons.inj heq
    exact hopen List.mem_cons_self

/-- brackets in a form that the editor knows are in the category -/
theorem takes_bracketed {inner suffix : List Char} (hinner : f.InBrackets inner) (hsuffix : Suffix f.AfterSlash suffix)
    (hsolid : ∀ c ∈ bracketed inner ++ suffix, isBlank c = false) : f.takes (bracketed inner ++ suffix) = true := by
  cases f with
  | backgroundColor => exact isColour_iff.2 ⟨_, _, rfl, isColourBase_iff.2 (.inr ⟨inner, rfl, hinner⟩), hsuffix⟩
  | textColor => exact isColour_iff.2 ⟨_, _, rfl, isColourBase_iff.2 (.inr ⟨inner, rfl, hinner⟩), hsuffix⟩
  | borderColor => exact isColour_iff.2 ⟨_, _, rfl, isColourBase_iff.2 (.inr ⟨inner, rfl, hinner⟩), hsuffix⟩
  | fontSize =>
    have hbase : isSizeBase (bracketed inner) = true := by
      unfold isSizeBase
      rw [isMeasure_iff.2 ⟨inner, rfl, hinner⟩, Bool.or_true]
    refine isTextSize_iff.2 ⟨_, _, rfl, hbase, hsuffix.imp_right ?_⟩
    rintro ⟨height, rfl, hne⟩
    exact ⟨height, rfl, hne, fun c hc => hsolid c (List.mem_append_right _ (List.mem_cons_of_mem _ hc))⟩
  | fontWeight =>
    rw [hsuffix.eq_nil fun _ => id, List.append_nil]
    exact isWeight_iff.2 (.inr ⟨inner, rfl, hinner⟩)
  | borderWidth =>
    rw [hsuffix.eq_nil fun _ => id, List.append_nil]
    exact isWidth_iff.2 (.inr ⟨inner, rfl, hinner⟩)
  | borderRadius =>
    have hany : (bracketed inner ++ suffix).any isBlank = false := by
      rw [List.any_eq_false]
      intro c hc
      rw [hsolid c hc]
      decide
    rw [StyleField.takes, hany]
    rfl

/-! ## Colours -/

theorem isColourName_of_baseColour? {base c : List Char} (h : baseColour? base = some c) (hopen : '[' ∉ base) :
    isColourName base = true := by
  have hnames : ∀ k ∈ colourNames.map fun row => row.1.toList, isColourName k = true := by decide
  have hpalette : ∀ k ∈ paletteNames, isColourName k = true := by decide +kernel
  rcases baseColour?_cases h with hkeyword | ⟨inner, rfl⟩ | hlisted
  · exact hnames base hkeyword
  · exact absurd List.mem_cons_self hopen
  · exact hpalette base hlisted

/-- a colour that the style sheet knows by name is one for the editor -/
theorem isColourName_of_colour? {base suffix : List Char} (hopen : '[' ∉ base) (hslash : '/' ∉ base)
    (hsuffix : Suffix Opacity suffix) (h : (colour? (base ++ suffix)).isSome = true) : isColourName base = true := by
  obtain ⟨c, hc⟩ : ∃ c, baseColour? (splitAlpha (base ++ suffix)).1 = some c := by
    unfold colour? at h
    dsimp only at h
    split at h
    · cases h
    · exact ⟨_, ‹_›⟩
    · exact ⟨_, ‹_›⟩
  rcases hsuffix with rfl | ⟨digits, rfl, hlow, hhigh, hdigits⟩
  · have hwhole : splitAlpha base = (base, none) := by
      rw [splitAlpha, splitLast?_eq_none hslash]
    rw [List.append_nil, hwhole] at hc
    exact isColourName_of_baseColour? hc hopen
  · have hsplit : splitLast? '/' (base ++ '/' :: digits) = some (base, digits) :=
      splitLast?_append base (notMem_of_digits (by decide) hdigits)
    unfold splitAlpha at hc
    rw [hsplit] at hc
    dsimp only at hc
    split at hc
    · exact isColourName_of_baseColour? hc hopen
    · -- an opacity that is no percentage leaves the slash in the name
      have hclosed : '[' ∉ base ++ '/' :: digits := by
        have hno : '[' ∉ digits := notMem_of_digits (by decide) hdigits
        simp [hopen, hno]
      have hname := isColourName_of_baseColour? hc hclosed
      exact absurd rfl (isColourName_solid hname (List.mem_append_right _ List.mem_cons_self)).2.1

/-! ## Values in the category -/

theorem valueNames_plain : ∀ f ∈ StyleField.all, ∀ name ∈ f.valueNames, f.takes name.toList = true ∧ '[' ∉ name.toList ∧
    '/' ∉ name.toList := by
  decide +kernel

/-- a value in the category that sets the property has a form of the editor -/
theorem editorForm_of_takes (hsets : f.Sets v) (h : f.takes v = true) : EditorForm f v := by
  have hname (hmem : v ∈ f.valueNames.map String.toList) : EditorForm f v := by
    obtain ⟨name, hname, rfl⟩ := List.mem_map.1 hmem
    obtain ⟨-, hopen, hslash⟩ := valueNames_plain f f.mem_all name hname
    exact List.append_nil name.toList ▸ .named hopen hslash .nil
  have hbrackets {inner : List Char} (hv : v = bracketed inner) (hinner : f.InBrackets inner) : EditorForm f v := by
    rw [hv, ← List.append_nil (bracketed inner)]
    exact .bracketed hinner .nil
  have hcolour {base suffix : List Char} (hbase : isColourBase base = true) (hcategory : f.InBrackets = ArbitraryColour)
      (hsuffix : Suffix f.AfterSlash suffix) : EditorForm f (base ++ suffix) := by
    rcases isColourBase_iff.1 hbase with hname | ⟨inner, rfl, hinner⟩
    · exact .named (fun hmem => (isColourName_solid hname hmem).2.2 rfl)
        (fun hmem => (isColourName_solid hname hmem).2.1 rfl) hsuffix
    · exact .bracketed (hcategory ▸ hinner) hsuffix
  cases f with
  | backgroundColor =>
    obtain ⟨base, suffix, rfl, hbase, hsuffix⟩ := isColour_iff.1 h
    exact hcolour hbase rfl hsuffix
  | textColor =>
    obtain ⟨base, suffix, rfl, hbase, hsuffix⟩ := isColour_iff.1 h
    exact hcolour hbase rfl hsuffix
  | borderColor =>
    obtain ⟨base, suffix, rfl, hbase, hsuffix⟩ := isColour_iff.1 h
    exact hcolour hbase rfl hsuffix
  | fontSize =>
    obtain ⟨base, suffix, rfl, hbase, hsuffix⟩ := isTextSize_iff.1 h
    have hsuffix : Suffix StyleField.fontSize.AfterSlash suffix :=
      hsuffix.imp_right fun ⟨height, heq, hne, _⟩ => ⟨height, heq, hne⟩
    rcases isSizeBase_cases hbase with ⟨hopen, hslash⟩ | ⟨inner, rfl, hinner⟩
    · exact .named hopen hslash hsuffix
    · exact .bracketed hinner hsuffix
  | fontWeight =>
    rcases isWeight_iff.1 h with hlookup | ⟨inner, hv, hinner⟩
    · obtain ⟨w, hw⟩ := Option.isSome_iff_exists.1 hlookup
      exact hname (named?_mem (Option.map_eq_some_iff.2 ⟨w, hw, rfl⟩))
    · exact hbrackets hv hinner
  | borderWidth =>
    rcases isWidth_iff.1 h with hstep | ⟨inner, hv, hinner⟩
    · exact hname (List.mem_map.2 ⟨_, hstep, String.toList_ofList⟩)
    · exact hbrackets hv hinner
  | borderRadius =>
    rcases hsets with hmem | ⟨inner, hv⟩
    · exact hname hmem
    · exact hbrackets hv trivial

/-- a value in a form of the editor that sets the property is in the category -/
theorem takes_of_editorForm (hsolid : ∀ c ∈ v, isBlank c = false) (hsets : f.Sets v) (h : EditorForm f v) :
    f.takes v = true := by
  have hvalue (hsets : v ∈ f.valueNames.map String.toList ∨ ∃ inner, v = bracketed inner) {base suffix : List Char}
      (hv : v = base ++ suffix) (hopen : '[' ∉ base) (hsuffix : Suffix f.AfterSlash suffix) : f.takes v = true := by
    rcases hsets with hmem | ⟨inner, hinner⟩
    · obtain ⟨name, hname, rfl⟩ := List.mem_map.1 hmem
      exact (valueNames_plain f f.mem_all name hname).1
    · have heq : bracketed inner ++ [] = base ++ suffix := (List.append_nil _).trans (hinner.symm.trans hv)
      exact absurd heq (bracketed_ne_named hopen hsuffix [])
  cases h with
  | bracketed hinner hsuffix => exact takes_bracketed hinner hsuffix hsolid
  | @named base suffix hopen hslash hsuffix =>
    have hcolour (hsuffix : Suffix Opacity suffix) (hsome : (colour? (base ++ suffix)).isSome = true) :
        isColour (base ++ suffix) = true :=
      isColour_iff.2 ⟨base, suffix, rfl, isColourBase_iff.2 (.inl (isColourName_of_colour? hopen hslash hsuffix hsome)),
        hsuffix⟩
    cases f with
    | backgroundColor => exact hcolour hsuffix hsets
    | textColor => exact hcolour hsuffix hsets
    | borderColor => exact hcolour hsuffix hsets
    | fontSize => exact hvalue hsets rfl hopen hsuffix
    | fontWeight => exact hvalue hsets rfl hopen hsuffix
    | borderWidth => exact hvalue hsets rfl hopen hsuffix
    | borderRadius => exact hvalue hsets rfl hopen hsuffix

theorem takes_iff_editorForm (hsolid : ∀ c ∈ v, isBlank c = false) (hsets : f.Sets v) :
    f.takes v = true ↔ EditorForm f v :=
  ⟨editorForm_of_takes hsets, takes_of_editorForm hsolid hsets⟩

/-! ## Classes -/

theorem mem_of_mem_unmarked {t : List Char} {c : Char} (h : c ∈ unmarked t) : c ∈ t := by
  unfold unmarked at h
  split at h
  · exact List.mem_cons_of_mem _ h
  · exact h

theorem namedClass_ne_srOnly (f : StyleField) (v : List Char) : namedClass f.className v ≠ "sr-only".toList := by
  intro h
  have hhead : (namedClass f.className v).head? ≠ some 's' := by
    cases f <;> exact show some _ ≠ some 's' by decide
  rw [h] at hhead
  exact hhead rfl

/-- **Classes that an update takes out.** A class without variants that sets the property of a field is in the category
of the field, unless it is `sr-only` or its brackets have another form than the editor's. -/
theorem matchesField_compiled_iff {t : List Char} {rule : Rule} (hsolid : ∀ c ∈ t, isBlank c = false)
    (hinside : colonOutside 0 t = false) (hrule : compileClass? t = some rule) (hd : d ∈ rule.declarations)
    (hproperty : d.property = f.cssProperty) : matchesField f t = true ↔
      unmarked t ≠ "sr-only".toList ∧ ∀ v, unmarked t = namedClass f.className v → EditorForm f v := by
  obtain ⟨utility, negative, found, hutility, hfound, hproperties⟩ := compileClass?_cases hinside hrule
  obtain ⟨e, he, heq⟩ := List.mem_map.1 (hproperties ▸ List.mem_map.2 ⟨d, hd, rfl⟩)
  obtain ⟨rfl, hcases⟩ := resolved_cases hfound he (heq.trans hproperty)
  replace hutility : unmarked t = utility := hutility
  subst hutility
  rcases hcases with hkeyword | ⟨halone, hf⟩ | ⟨v, hvalue, hsets⟩
  · have hno : matchesField f t = false := by
      rw [matchesField_congr (t := "sr-only".toList) hkeyword f]
      cases f <;> decide
    rw [hno]
    exact ⟨fun h => (Bool.false_ne_true h).elim, fun h => absurd hkeyword h.1⟩
  · have hyes : matchesField f t = true ∧ unmarked t ≠ "sr-only".toList := by
      rcases hf with rfl | rfl
      · rw [matchesField_congr (t := "border".toList) halone, halone]
        decide
      · rw [matchesField_congr (t := "rounded".toList) halone, halone]
        decide
    exact iff_of_true hyes.1 ⟨hyes.2, fun v hv => absurd (hv.symm.trans halone) (namedClass_ne _ v)⟩
  · have hvsolid : ∀ c ∈ v, isBlank c = false := by
      intro c hc
      exact hsolid c (mem_of_mem_unmarked (hvalue ▸ List.mem_append_right _ hc))
    rw [matchesField_congr (hvalue.trans (unmarked_namedClass f v).symm) f, matchesField_namedClass,
      takes_iff_editorForm hvsolid hsets]
    constructor
    · intro hform
      refine ⟨hvalue ▸ namedClass_ne_srOnly f v, fun w hw => ?_⟩
      have hvw : v = w := List.append_cancel_left (hvalue.symm.trans hw)
      exact hvw ▸ hform
    · exact fun h => h.2 v hvalue

/-- an important colour with an opacity -/
theorem matchesField_compiled_iff_rgb : matchesField .backgroundColor "!bg-[rgb(1_2_3)]/50".toList = true := by
  have hrule : compileClass? "!bg-[rgb(1_2_3)]/50".toList = some ⟨.always,
      ".\\!bg-\\[rgb\\(1_2_3\\)\\]\\/50".toList,
      [⟨"background-color", "color-mix(in srgb, rgb(1 2 3) 50%, transparent) !important".toList⟩]⟩ := by
    decide +kernel
  have hsolid : ∀ c ∈ "!bg-[rgb(1_2_3)]/50".toList, isBlank c = false := isBlank_of_all (by decide)
  have hinside : colonOutside 0 "!bg-[rgb(1_2_3)]/50".toList = false := by decide
  refine (matchesField_compiled_iff hsolid hinside hrule (List.mem_singleton.2 rfl) rfl).2 ⟨by decide, ?_⟩
  intro v hv
  have hvalue : "bg-".toList ++ v = "bg-".toList ++ (bracketed "rgb(1_2_3)".toList ++ "/50".toList) :=
    hv.symm.trans (by decide)
  rw [List.append_cancel_left hvalue]
  have hinner : ArbitraryColour "rgb(1_2_3)".toList := isBracketColour_iff.1 (by decide)
  have hdigits : ("50".toList.all isDecimalDigit) = true := by decide
  have hopacity : Opacity "50".toList := ⟨by decide, by decide, List.all_eq_true.1 hdigits⟩
  exact .bracketed hinner (.inr ⟨"50".toList, rfl, hopacity⟩)

/-- a class whose rule sets the property of a field, and which an update of the field does not take out -/
def isLeft (f : StyleField) (t : String) : Bool :=
  (compileClass? t.toList).any (·.declarations.any (·.property == f.cssProperty)) && !matchesField f t.toList

/-- **Classes that an update leaves.** `sr-only` sets a border width without being a class for one, and brackets may
hold more for the style sheet than for the editor. -/
theorem compiled_not_matched :
    isLeft .borderWidth "sr-only" = true ∧ isLeft .backgroundColor "bg-[var(--x)]" = true ∧
      isLeft .textColor "text-red-500/[0.5]" = true ∧ isLeft .fontSize "text-[12vw]" = true ∧
      isLeft .borderWidth "border-[2em]" = true ∧ isLeft .fontWeight "font-[+500]" = true := by
  decide +kernel

end TsxWorkbench.Edit
