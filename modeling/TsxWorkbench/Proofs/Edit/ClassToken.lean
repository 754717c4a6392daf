/-
Classes that the style editor writes, as the style sheet reads them.
- `listedClasses_declare`: the classes of the editor's tables declare the property of their field.
- `pixelToken_declares`: so do lengths that no table has.
- `colourName_declares`, `bracketed_declares`: colours by name and colours in square brackets.
- `formatToken_declares`: a class for a value declares the property of its field. A colour by name must be one that the
  style sheet knows, and a colour in brackets one that the style sheet takes for a colour (`ReadAsColour`); the value is
  then the colour of the name, the hexadecimal colour in its normal form, or the text itself.
-/
import TsxWorkbench.Edit.ClassToken
import TsxWorkbench.Proofs.Text.Blank
import TsxWorkbench.Proofs.Utility.Bracket

namespace TsxWorkbench.Edit

open Number Text Utility

/-! ## What a field stands for -/

namespace StyleField

/-- CSS property of a field -/
def cssProperty : StyleField → String
  | .backgroundColor => "background-color"
  | .textColor => "color"
  | .fontSize => "font-size"
  | .fontWeight => "font-weight"
  | .borderColor => "border-color"
  | .borderWidth => "border-width"
  | .borderRadius => "border-radius"

/-- name of the classes of a colour field -/
def colourName? : StyleField → Option String
  | .backgroundColor => some "bg"
  | .textColor => some "text"
  | .borderColor => some "border"
  | _ => none

end StyleField

/-- a class has a rule of its own, without conditions, that gives a property a value -/
def Declares (token : List Char) (property : String) (value : List Char) : Prop :=
  ∃ ds, compileClass? token = some ⟨.always, '.' :: escapeClass token, ds⟩ ∧ ⟨property, value⟩ ∈ ds

/-! ## Tables -/

/-- classes of the tables with the properties of their fields -/
def listedClasses : List (List Char × String) :=
  widthScale.map (fun row => (row.2.toList, "border-width")) ++
    (radiusScale.map (fun row => (row.2.toList, "border-radius")) ++
      (fontScale.map (fun row => (row.2.toList, "font-size")) ++
        fontWeights.map fun w => (("font-" ++ w.1).toList, "font-weight")))

theorem mem_listedClasses {token : List Char} {property : String} :
    (token, property) ∈ listedClasses ↔
      (∃ row ∈ widthScale, (row.2.toList, "border-width") = (token, property)) ∨
      (∃ row ∈ radiusScale, (row.2.toList, "border-radius") = (token, property)) ∨
      (∃ row ∈ fontScale, (row.2.toList, "font-size") = (token, property)) ∨
      ∃ w ∈ fontWeights, (("font-" ++ w.1).toList, "font-weight") = (token, property) := by
  simp only [listedClasses, List.mem_append, List.mem_map]

theorem listedClasses_declare : ∀ e ∈ listedClasses, ∃ value, Declares e.1 e.2 value := by
  have hplain : ∀ e ∈ listedClasses, colonOutside 0 e.1 = false ∧
      e.1.head?.any (fun c => c != '!' && c != '-') = true := by
    decide +kernel
  have hfound : ∀ e ∈ listedClasses, (resolve? e.1 false).any (·.any (·.property == e.2)) = true := by
    decide +kernel
  rintro ⟨token, property⟩ he
  obtain ⟨hcolon, hhead⟩ := hplain _ he
  obtain ⟨ds, hds, hany⟩ := (Option.any_eq_true _ _).1 (hfound _ he)
  obtain ⟨d, hd, hproperty⟩ := List.any_eq_true.1 hany
  cases token with
  | nil => cases hhead
  | cons c cs =>
    refine ⟨d.value, ds, ?_, eq_of_beq hproperty ▸ hd⟩
    rw [compileClass?_of_inside (by simpa using hhead) hcolon, hds]
    rfl

/-! ## Brackets -/

variable {name : String} {inner : List Char}

theorem bracketed_length_declares (hne : inner ≠ []) (hinside : colonOutside 1 inner = false)
    (hlength : isLength (spaced inner) = true) :
    Declares (namedClass "text" (bracketed inner)) "font-size" (spaced inner) ∧
      Declares (namedClass "border" (bracketed inner)) "border-width" (spaced inner) := by
  constructor
  · refine ⟨_, ?_, List.mem_singleton.2 rfl⟩
    rw [compileClass?_bracketed (by decide) hinside,
      resolve?_text (keyword?_bracketed _ _) (splitName?_bracketed (by decide) inner), textUtility?_bracketed hne,
      if_pos hlength]
    rfl
  · refine ⟨_, ?_, List.mem_singleton.2 rfl⟩
    rw [compileClass?_bracketed (by decide) hinside,
      resolve?_border (keyword?_bracketed _ _) (splitName?_bracketed (by decide) inner), borderWidth?_bracketed hne,
      if_pos hlength]
    rfl

theorem bracketed_radius_declares (hne : inner ≠ []) (hinside : colonOutside 1 inner = false) :
    Declares (namedClass "rounded" (bracketed inner)) "border-radius" (spaced inner) := by
  refine ⟨_, ?_, List.mem_singleton.2 rfl⟩
  rw [compileClass?_bracketed (by decide) hinside,
    resolve?_rounded (keyword?_bracketed _ _) (splitName?_bracketed (by decide) inner), radius?_bracketed hne]
  rfl

/-- contents of brackets that are taken for a colour -/
structure ReadAsColour (inner : List Char) : Prop where
  inside : colonOutside 1 inner = false
  not_length : isLength (spaced inner) = false
  unsuffixed : Unsuffixed (spaced inner)

/-- **A colour in brackets.** Its class declares it, with underscores as spaces. -/
theorem bracketed_declares {f : StyleField} (hf : f.colourName? = some name) (hne : inner ≠ [])
    (h : ReadAsColour inner) : Declares (namedClass name (bracketed inner)) f.cssProperty (spaced inner) := by
  have hcolour := colour?_bracketed hne h.not_length h.unsuffixed
  refine ⟨_, ?_, List.mem_singleton.2 rfl⟩
  cases f with
  | backgroundColor =>
    cases hf
    rw [compileClass?_bracketed (by decide) h.inside,
      resolve?_bg (keyword?_bracketed _ _) (splitName?_bracketed (by decide) inner), hcolour]
    rfl
  | textColor =>
    cases hf
    rw [compileClass?_bracketed (by decide) h.inside,
      resolve?_text (keyword?_bracketed _ _) (splitName?_bracketed (by decide) inner), textUtility?_bracketed hne,
      h.not_length, hcolour]
    rfl
  | borderColor =>
    cases hf
    rw [compileClass?_bracketed (by decide) h.inside,
      resolve?_border (keyword?_bracketed _ _) (splitName?_bracketed (by decide) inner), borderWidth?_bracketed hne,
      h.not_length, hcolour]
    rfl
  | fontSize => cases hf
  | fontWeight => cases hf
  | borderWidth => cases hf
  | borderRadius => cases hf

/-! ## Lengths -/

theorem pixelToken_eq (name : String) (x : Binary64) :
    pixelToken name x = namedClass name (bracketed (x.scriptText ++ "px".toList)) := by
  simp [pixelToken, namedClass, bracketed, String.toList_append]

/-- a number of pixels in brackets is nothing but a length -/
theorem pixels_bracketed {cs : List Char} (h : Numeric cs) : colonOutside 1 (cs ++ "px".toList) = false ∧
    spaced (cs ++ "px".toList) = cs ++ "px".toList ∧ isLength (cs ++ "px".toList) = true := by
  have hunit : ("px".toList.all fun c => c != ':' && c != '_') = true := by decide
  have hchar : ∀ c ∈ cs ++ "px".toList, c ≠ ':' ∧ c ≠ '_' := by
    intro c hc
    rcases List.mem_append.1 hc with hc | hc
    · have hnumeric := h.chars c hc
      constructor <;> rintro rfl <;> exact absurd hnumeric (by decide)
    · simpa using List.all_eq_true.1 hunit c hc
  refine ⟨colonOutside_of_not_mem (fun hc => (hchar _ hc).1 rfl) 1,
    spaced_of_not_mem fun hc => (hchar _ hc).2 rfl, ?_⟩
  cases cs with
  | nil => exact absurd rfl h.nonempty
  | cons c cs =>
    have hc := h.chars c List.mem_cons_self
    simp only [isNumeric, Bool.or_eq_true, beq_iff_eq] at hc
    simp [isLength, startsNumeric, hc]

theorem pixelToken_declares {x : Binary64} (h : Numeric x.scriptText) :
    (∃ value, Declares (pixelToken "text" x) "font-size" value) ∧
      (∃ value, Declares (pixelToken "border" x) "border-width" value) ∧
      ∃ value, Declares (pixelToken "rounded" x) "border-radius" value := by
  obtain ⟨hinside, hspaced, hlength⟩ := pixels_bracketed h
  have hne : x.scriptText ++ "px".toList ≠ [] := by simp [h.nonempty]
  simp only [pixelToken_eq]
  obtain ⟨hsize, hwidth⟩ := bracketed_length_declares hne hinside (by rw [hspaced, hlength])
  exact ⟨⟨_, hsize⟩, ⟨_, hwidth⟩, ⟨_, bracketed_radius_declares hne hinside⟩⟩

/-- a length is finite and not negative, so its text is digits, and a point with more digits if there is one -/
theorem positional_of_pixels? {v : StyleValue} {x : Binary64} (h : pixels? v = some x) :
    Positional isDigit x.scriptText := by
  unfold pixels? at h
  dsimp only at h
  split at h
  · rename_i negative m q _
    split at h
    · cases h
    · rename_i hsign
      cases h
      apply Binary64.scriptText_positional
      intro hnegative
      simpa [hnegative] using hsign
  · cases h

theorem numeric_of_pixels? {v : StyleValue} {x : Binary64} (h : pixels? v = some x) : Numeric x.scriptText :=
  (positional_of_pixels? h).numeric

theorem mem_of_scaled? {table : List (Nat × String)} {x : Binary64} {t : List Char} (h : scaled? table x = some t) :
    t ∈ table.map fun row => row.2.toList := by
  obtain ⟨row, hrow, rfl⟩ := Option.map_eq_some_iff.1 h
  exact List.mem_map.2 ⟨row, List.mem_of_find?_eq_some hrow, rfl⟩

/-- a length is a class of a table or a number of pixels in brackets -/
theorem lengthToken_declares {table : List (Nat × String)} {property : String}
    (htable : ∀ row ∈ table, (row.2.toList, property) ∈ listedClasses) {x : Binary64}
    (hpixels : ∃ value, Declares (pixelToken name x) property value) :
    ∃ value, Declares ((scaled? table x).getD (pixelToken name x)) property value := by
  cases hscaled : scaled? table x with
  | none => exact hpixels
  | some t =>
    obtain ⟨row, hrow, rfl⟩ := List.mem_map.1 (mem_of_scaled? hscaled)
    exact listedClasses_declare _ (htable row hrow)

theorem weightToken_mem {v : StyleValue} {t : List Char} (h : weightToken? v = some t) :
    (t, "font-weight") ∈ listedClasses := by
  have hlisted : ∀ w ∈ fontWeights, (("font-" ++ w.1).toList, "font-weight") ∈ listedClasses := by
    intro w hw
    exact mem_listedClasses.2 (.inr (.inr (.inr ⟨w, hw, rfl⟩)))
  have hnumeric : ∀ x : Binary64, (if x.isFinite then
      (fontWeights[weightStep x - 1]?).map fun w => ("font-" ++ w.1).toList else none) = some t →
      (t, "font-weight") ∈ listedClasses := by
    intro x hx
    split at hx
    · obtain ⟨w, hw, rfl⟩ := Option.map_eq_some_iff.1 hx
      exact hlisted w (List.mem_of_getElem? hw)
    · cases hx
  unfold weightToken? at h
  dsimp only at h
  cases v with
  | number x => exact hnumeric x h
  | text s =>
    dsimp only at h
    split at h
    · rename_i hsome
      cases h
      obtain ⟨w, hw⟩ := Option.isSome_iff_exists.1 hsome
      obtain ⟨row, hrow, hname⟩ := List.mem_map.1 (mem_map_fst_of_lookup hw)
      have htoken := hlisted row hrow
      rwa [String.toList_append, hname] at htoken
    · obtain ⟨x, -, hx⟩ := Option.bind_eq_some_iff.1 h
      exact hnumeric x hx

/-! ## Colours by name -/

/-- a text whose second character is there and is no hyphen -/
def goesOn : List Char → Bool
  | _ :: c :: _ => c != '-'
  | _ => false

/-- colours that the style sheet knows have more than one letter in front of a hyphen -/
theorem goesOn_of_baseColour? {v c : List Char} (hname : isColourName v = true) (h : baseColour? v = some c) :
    goesOn v = true := by
  have hnames : ∀ k ∈ colourNames.map fun row => row.1.toList, goesOn k = true := by decide
  have hpalette : ∀ k ∈ paletteNames, goesOn k = true := by decide +kernel
  rcases baseColour?_cases h with hkeyword | ⟨inner, rfl⟩ | hlisted
  · exact hnames v hkeyword
  · exact absurd rfl (isColourName_solid hname List.mem_cons_self).2.2
  · exact hpalette v hlisted

/-- names of colour classes -/
def colourClassNames : List String := ["bg", "text", "border"]

/-- names that go on after the name of a colour class do so with one letter -/
theorem longer_names : ∀ name ∈ colourClassNames, name ∈ fieldNames ∧
    ∀ n ∈ sideNames ++ plainNames, (stripStart? (name ++ "-").toList n.toList).all (·.length == 1) = true := by
  decide +kernel

/-- keywords do not go on with a colour -/
theorem keyword_colours : ∀ name ∈ colourClassNames, ∀ k ∈ keywordNames,
    (stripStart? (name ++ "-").toList k).all (!isColourName ·) = true := by
  have hall := forall_mem_keywordNames (fun k => colourClassNames.all fun name =>
    (stripStart? (name ++ "-").toList k).all (!isColourName ·)) (by decide +kernel)
  exact fun name hname k hk => List.all_eq_true.1 (hall k hk) name hname

theorem keyword?_colourName (hname : name ∈ colourClassNames) {v : List Char} (hv : isColourName v = true) :
    keyword? (namedClass name v) = none := by
  cases h : keyword? (namedClass name v) with
  | none => rfl
  | some ds =>
    have hall := keyword_colours name hname _ (keyword?_mem h)
    rw [stripStart?_eq_some_iff.2 (rfl : namedClass name v = _ ++ v)] at hall
    simp [hv] at hall

theorem splitName?_colourName (hname : name ∈ colourClassNames) {v : List Char} (hv : goesOn v = true) :
    splitName? (namedClass name v) = some (name, some v) := by
  obtain ⟨hfield, hlonger⟩ := longer_names name hname
  apply splitName?_eq hfield (by rintro rfl; cases hv)
  intro n hn rest hrest
  have hall := hlonger n hn
  rw [stripStart?_eq_some_iff.2 hrest] at hall
  obtain ⟨c, rfl⟩ := List.length_eq_one_iff.1 (eq_of_beq hall)
  constructor
  · rintro rfl
    cases hv
  · rintro ⟨tail, rfl⟩
    cases hv

theorem colour?_of_baseColour? {v c : List Char} (hname : isColourName v = true) (h : baseColour? v = some c) :
    colour? v = some c := by
  have hwhole : splitAlpha v = (v, none) := by
    rw [splitAlpha, splitLast?_eq_none fun hd => (isColourName_solid hname hd).2.1 rfl]
  simp [colour?, hwhole, h]

theorem arbitrary?_of_isColourName {v : List Char} (hname : isColourName v = true) : arbitrary? v = none := by
  unfold arbitrary?
  split
  · exact absurd rfl (isColourName_solid hname List.mem_cons_self).2.2
  · rfl

/-- no colour is the name of a font size -/
theorem fontSizes_of_isColourName {v : List Char} (hname : isColourName v = true) :
    fontSizes.lookup (String.ofList v) = none := by
  have hsizes : ∀ k ∈ fontSizes.map fun row => row.1.toList, isColourName k = false := by decide
  cases hlookup : fontSizes.lookup (String.ofList v) with
  | none => rfl
  | some row =>
    have hno := hsizes v (mem_map_fst_of_lookup hlookup)
    rw [hname] at hno
    cases hno

/-- no colour is a border width -/
theorem borderWidth?_of_isColourName {v : List Char} (hname : isColourName v = true) (hgoes : goesOn v = true) :
    borderWidth? (some v) = none := by
  have hsteps : ∀ k ∈ ["0", "2", "4", "8"], goesOn k.toList = false := by decide
  have hno : ["0", "2", "4", "8"].contains (String.ofList v) = false := by
    rw [Bool.eq_false_iff]
    intro hmem
    have hstep := hsteps _ (List.contains_iff_mem.1 hmem)
    rw [String.toList_ofList, hgoes] at hstep
    cases hstep
  unfold borderWidth?
  dsimp only
  rw [hno, arbitrary?_of_isColourName hname]
  rfl

/-- **A colour by name.** Its class declares the colour that the style sheet has for the name. -/
theorem colourName_declares {f : StyleField} (hf : f.colourName? = some name) {v c : List Char}
    (hname : isColourName v = true) (hcolour : baseColour? v = some c) :
    Declares (namedClass name v) f.cssProperty c := by
  have hgoes := goesOn_of_baseColour? hname hcolour
  have hinside : colonOutside 0 v = false :=
    colonOutside_of_not_mem (fun hd => (isColourName_solid hname hd).1 rfl) 0
  have hfull := colour?_of_baseColour? hname hcolour
  refine ⟨_, ?_, List.mem_singleton.2 rfl⟩
  cases f with
  | backgroundColor =>
    cases hf
    rw [compileClass?_namedClass (by decide) hinside,
      resolve?_bg (keyword?_colourName (by decide) hname) (splitName?_colourName (by decide) hgoes), hfull]
    rfl
  | textColor =>
    cases hf
    rw [compileClass?_namedClass (by decide) hinside,
      resolve?_text (keyword?_colourName (by decide) hname) (splitName?_colourName (by decide) hgoes), textUtility?,
      fontSizes_of_isColourName hname, arbitrary?_of_isColourName hname, hfull]
    rfl
  | borderColor =>
    cases hf
    rw [compileClass?_namedClass (by decide) hinside,
      resolve?_border (keyword?_colourName (by decide) hname) (splitName?_colourName (by decide) hgoes),
      borderWidth?_of_isColourName hname hgoes, hfull]
    rfl
  | fontSize => cases hf
  | fontWeight => cases hf
  | borderWidth => cases hf
  | borderRadius => cases hf

/-! ## Colours -/

theorem isHexDigit_lower {c : Char} (h : isHexDigit c = true) :
    isHexDigit (if 65 ≤ c.toNat ∧ c.toNat ≤ 90 then Char.ofNat (c.toNat + 32) else c) = true := by
  split
  · rename_i hupper
    have hletter : c.toNat = 65 ∨ c.toNat = 66 ∨ c.toNat = 67 ∨ c.toNat = 68 ∨ c.toNat = 69 ∨ c.toNat = 70 := by
      have hvalue : digitValue? 16 c = if c.toNat - 55 < 16 then some (c.toNat - 55) else none := by
        unfold digitValue?
        dsimp only
        have hdigit : ¬(48 ≤ c.toNat ∧ c.toNat ≤ 57) := by omega
        have hsmall : ¬(97 ≤ c.toNat ∧ c.toNat ≤ 122) := by omega
        rw [if_neg hdigit, if_neg hsmall, if_pos hupper]
      rw [isHexDigit, hvalue] at h
      by_cases hlt : c.toNat - 55 < 16
      · omega
      · rw [if_neg hlt] at h
        cases h
    rcases hletter with hc | hc | hc | hc | hc | hc <;> rw [hc] <;> decide
  · exact h

/-- a hexadecimal colour in its normal form is a mark and six or eight hexadecimal digits -/
theorem normalizeHex?_digits {text hex : List Char} (h : normalizeHex? text = some hex) :
    ∃ digits, hex = '#' :: digits ∧ (∀ c ∈ digits, isHexDigit c = true) ∧
      (digits.length = 6 ∨ digits.length = 8) := by
  unfold normalizeHex? at h
  split at h
  · rename_i digits _
    split at h
    · rename_i hdigits
      simp only [Bool.and_eq_true, List.all_eq_true, List.contains_iff_mem, List.mem_cons, List.not_mem_nil,
        or_false] at hdigits
      have hsmall : ∀ c ∈ lowerAscii digits, isHexDigit c = true := by
        intro c hc
        obtain ⟨d, hd, rfl⟩ := List.mem_map.1 hc
        exact isHexDigit_lower (hdigits.1 d hd)
      have hlength : (lowerAscii digits).length = digits.length := List.length_map _
      have htwice : ((lowerAscii digits).flatMap fun c => [c, c]).length = 2 * (lowerAscii digits).length := by
        simp [Nat.mul_comm]
      cases h
      refine ⟨_, rfl, fun c hc => ?_, ?_⟩
      · split at hc
        · obtain ⟨d, hd, hcd⟩ := List.mem_flatMap.1 hc
          simp only [List.mem_cons, List.not_mem_nil, or_false, or_self] at hcd
          exact hcd ▸ hsmall d hd
        · exact hsmall c hc
      · split
        · omega
        · omega
    · cases h
  · cases h

theorem readAsColour_hex {text hex : List Char} (h : normalizeHex? text = some hex) :
    ReadAsColour hex ∧ spaced hex = hex := by
  obtain ⟨digits, rfl, hdigits, -⟩ := normalizeHex?_digits h
  have hno {c : Char} (hmark : c ≠ '#') (hdigit : isHexDigit c = false) : c ∉ '#' :: digits := by
    intro hc
    rcases List.mem_cons.1 hc with rfl | hc
    · exact hmark rfl
    · rw [hdigits c hc] at hdigit
      cases hdigit
  have hspaced : spaced ('#' :: digits) = '#' :: digits := spaced_of_not_mem (hno (by decide) (by decide))
  refine ⟨⟨colonOutside_of_not_mem (hno (by decide) (by decide)) 1, ?_, ?_⟩, hspaced⟩
  · rw [hspaced]
    rfl
  · rw [hspaced]
    exact unsuffixed_of_not_mem (hno (by decide) (by decide))

/-- a text with its spaces written as underscores -/
def underscored (v : List Char) : List Char := v.map fun c => if c = ' ' then '_' else c

theorem spaced_underscored (v : List Char) : spaced (underscored v) = spaced v := by
  unfold spaced underscored
  rw [List.map_map]
  apply List.map_congr_left
  intro c _
  by_cases hc : c = ' '
  · simp [hc]
  · simp [hc]

theorem colonOutside_underscored (v : List Char) (depth : Nat) :
    colonOutside depth (underscored v) = colonOutside depth v := by
  unfold underscored
  induction v generalizing depth with
  | nil => rfl
  | cons c cs ih =>
    by_cases hc : c = ' '
    · simp [colonOutside, hc, ih]
    · simp [colonOutside, hc, ih]

theorem readAsColour_underscored {v : List Char} (h : ReadAsColour v) : ReadAsColour (underscored v) where
  inside := (colonOutside_underscored v 1).trans h.inside
  not_length := (spaced_underscored v).symm ▸ h.not_length
  unsuffixed := (spaced_underscored v).symm ▸ h.unsuffixed

theorem bracketToken_eq (name : String) (inner : List Char) :
    (name ++ "-[").toList ++ inner ++ [']'] = namedClass name (bracketed inner) := by
  simp [namedClass, bracketed, String.toList_append]

/-- a colour text that a class can carry: a hexadecimal colour, a name that the style sheet knows, or contents of
brackets that are taken for a colour -/
def Carried (text : List Char) : Prop :=
  (normalizeHex? text).isSome = true ∨
    (isColourName (trim text) = true ∧ (baseColour? (trim text)).isSome = true) ∨
      (isColourName (trim text) = false ∧ ReadAsColour (trim text))

/-- the CSS value of a colour text: its normal form if it is hexadecimal, the colour of a name, or the trimmed text
itself, if that has no underscores -/
structure ColourOf (text value : List Char) : Prop where
  hex : ∀ hex, normalizeHex? text = some hex → value = hex
  named : normalizeHex? text = none → isColourName (trim text) = true → baseColour? (trim text) = some value
  verbatim : normalizeHex? text = none → isColourName (trim text) = false → '_' ∉ trim text → value = trim text

theorem ColourOf.of_hex {text hex : List Char} (h : normalizeHex? text = some hex) : ColourOf text hex := by
  refine ⟨?_, ?_, ?_⟩
  · intro hex' heq
    exact Option.some.inj (h.symm.trans heq)
  · intro hnone
    rw [h] at hnone
    cases hnone
  · intro hnone
    rw [h] at hnone
    cases hnone

theorem ColourOf.of_named {text c : List Char} (hhex : normalizeHex? text = none)
    (hname : isColourName (trim text) = true) (h : baseColour? (trim text) = some c) : ColourOf text c := by
  refine ⟨?_, fun _ _ => h, ?_⟩
  · intro hex heq
    rw [hhex] at heq
    cases heq
  · intro _ hno
    rw [hname] at hno
    cases hno

theorem ColourOf.of_verbatim {text : List Char} (hhex : normalizeHex? text = none)
    (hname : isColourName (trim text) = false) : ColourOf text (spaced (trim text)) := by
  refine ⟨?_, ?_, fun _ _ hplain => spaced_of_not_mem hplain⟩
  · intro hex heq
    rw [hhex] at heq
    cases heq
  · intro _ hyes
    rw [hname] at hyes
    cases hyes

theorem hexToken_declares {f : StyleField} (hf : f.colourName? = some name) {text hex : List Char}
    (h : normalizeHex? text = some hex) : Declares ((name ++ "-[").toList ++ hex ++ [']']) f.cssProperty hex := by
  obtain ⟨hcolour, hspaced⟩ := readAsColour_hex h
  obtain ⟨digits, rfl, -, -⟩ := normalizeHex?_digits h
  have hdeclares := bracketed_declares hf (List.cons_ne_nil _ _) hcolour
  rwa [hspaced, ← bracketToken_eq] at hdeclares

theorem colourToken_declares {f : StyleField} (hf : f.colourName? = some name) {text t : List Char}
    (h : colourToken? name text = some t) (hcarried : Carried text) :
    ∃ value, Declares t f.cssProperty value ∧ ColourOf text value := by
  unfold colourToken? at h
  dsimp only at h
  have htrim : normalizeHex? (trim text) = normalizeHex? text := by
    unfold normalizeHex?
    rw [trim_trim]
  rw [htrim] at h
  split at h
  · cases h
  rename_i hne
  cases hhex : normalizeHex? text with
  | some hex =>
    rw [hhex] at h
    cases h
    exact ⟨hex, hexToken_declares hf hhex, .of_hex hhex⟩
  | none =>
    have hnotHex : ¬(normalizeHex? text).isSome = true := by simp [hhex]
    rw [hhex] at h
    dsimp only at h
    split at h
    · rename_i hname
      cases h
      rcases hcarried with hsome | ⟨-, hbase⟩ | ⟨hno, -⟩
      · exact absurd hsome hnotHex
      · obtain ⟨c, hc⟩ := Option.isSome_iff_exists.1 hbase
        exact ⟨c, colourName_declares hf hname hc, .of_named hhex hname hc⟩
      · rw [hname] at hno
        cases hno
    · rename_i hname
      cases h
      rcases hcarried with hsome | ⟨hyes, -⟩ | ⟨hno, hcolour⟩
      · exact absurd hsome hnotHex
      · exact absurd hyes hname
      · have hfull : underscored (trim text) ≠ [] := by simpa [underscored] using hne
        have hdeclares := bracketed_declares hf hfull (readAsColour_underscored hcolour)
        rw [spaced_underscored, ← bracketToken_eq] at hdeclares
        exact ⟨_, hdeclares, .of_verbatim hhex hno⟩

/-! ## All fields -/

/-- **A class declares what it is written for.** The class that the editor writes for a value of a field has a rule, and
the rule declares the property of the field. For colour texts that a class can carry, the value is that of the text. -/
theorem formatToken_declares {f : StyleField} {v : StyleValue} {t : List Char} (h : formatToken? f v = some t)
    (hcarried : f.colourName?.isSome = true → ∀ text, v = .text text → Carried text) :
    ∃ value, Declares t f.cssProperty value ∧
      (f.colourName?.isSome = true → ∀ text, v = .text text → ColourOf text value) := by
  have hcolour : ∀ name, f.colourName? = some name → v.text?.bind (colourToken? name) = some t →
      ∃ value, Declares t f.cssProperty value ∧
        (f.colourName?.isSome = true → ∀ text, v = .text text → ColourOf text value) := by
    intro name hf htoken
    have hsome : f.colourName?.isSome = true := by rw [hf]; rfl
    cases v with
    | number x => cases htoken
    | text s =>
      obtain ⟨value, hdeclares, hvalue⟩ := colourToken_declares hf htoken (hcarried hsome s rfl)
      refine ⟨value, hdeclares, ?_⟩
      rintro - text heq
      cases heq
      exact hvalue
  have hlength : (∃ value, Declares t f.cssProperty value) → f.colourName? = none →
      ∃ value, Declares t f.cssProperty value ∧
        (f.colourName?.isSome = true → ∀ text, v = .text text → ColourOf text value) := by
    rintro ⟨value, hdeclares⟩ hnone
    refine ⟨value, hdeclares, ?_⟩
    rw [hnone]
    rintro ⟨⟩
  cases f with
  | backgroundColor => exact hcolour "bg" rfl h
  | textColor => exact hcolour "text" rfl h
  | borderColor => exact hcolour "border" rfl h
  | fontSize =>
    obtain ⟨x, hx, rfl⟩ := Option.map_eq_some_iff.1 h
    refine hlength (lengthToken_declares ?_ (pixelToken_declares (numeric_of_pixels? hx)).1) rfl
    intro row hrow
    exact mem_listedClasses.2 (.inr (.inr (.inl ⟨row, hrow, rfl⟩)))
  | borderWidth =>
    obtain ⟨x, hx, rfl⟩ := Option.map_eq_some_iff.1 h
    refine hlength (lengthToken_declares ?_ (pixelToken_declares (numeric_of_pixels? hx)).2.1) rfl
    intro row hrow
    exact mem_listedClasses.2 (.inl ⟨row, hrow, rfl⟩)
  | borderRadius =>
    obtain ⟨x, hx, rfl⟩ := Option.map_eq_some_iff.1 h
    refine hlength (lengthToken_declares ?_ (pixelToken_declares (numeric_of_pixels? hx)).2.2) rfl
    intro row hrow
    exact mem_listedClasses.2 (.inr (.inl ⟨row, hrow, rfl⟩))
  | fontWeight => exact hlength (listedClasses_declare _ (weightToken_mem h)) rfl

/-- a colour function with an opacity of its own -/
theorem formatToken_declares_rgb :
    Declares "text-[rgb(1_2_3_/_50%)]".toList "color" "rgb(1 2 3 / 50%)".toList := by
  have hcarried : Carried " rgb(1 2 3 / 50%)".toList := by
    refine .inr (.inr ⟨by decide +kernel, by decide +kernel, by decide +kernel, ?_⟩)
    exact unsuffixed_of_not_mem (by decide +kernel)
  have htoken : formatToken? .textColor (.text " rgb(1 2 3 / 50%)".toList) =
      some "text-[rgb(1_2_3_/_50%)]".toList := by decide +kernel
  have hall : ∀ text, StyleValue.text " rgb(1 2 3 / 50%)".toList = .text text → Carried text := by
    rintro _ ⟨⟩
    exact hcarried
  obtain ⟨value, hdeclares, hvalue⟩ := formatToken_declares htoken fun _ => hall
  have hverbatim := (hvalue rfl _ rfl).verbatim (by decide +kernel) (by decide +kernel) (by decide +kernel)
  rw [hverbatim] at hdeclares
  exact hdeclares

/-- **Texts that no class carries.** A colour of a family that the style sheet does not have, a length, a colon after
the brackets are closed and an end that is taken for an opacity are written as classes that do not declare the property;
an underscore comes back as a space. -/
theorem formatToken_not_carried :
    (formatToken? .backgroundColor (.text "cyan-500".toList) = some "bg-cyan-500".toList ∧
      compileClass? "bg-cyan-500".toList = none) ∧
    (formatToken? .textColor (.text "calc(1px)".toList) = some "text-[calc(1px)]".toList ∧
      (compileClass? "text-[calc(1px)]".toList).map Rule.declarations = some (declare "font-size" "calc(1px)")) ∧
    (formatToken? .backgroundColor (.text "]:red".toList) = some "bg-[]:red]".toList ∧
      compileClass? "bg-[]:red]".toList = none) ∧
    (formatToken? .backgroundColor (.text "red]/[0.5".toList) = some "bg-[red]/[0.5]".toList ∧
      (compileClass? "bg-[red]/[0.5]".toList).map Rule.declarations =
        some (declare "background-color" "color-mix(in srgb, red 50%, transparent)")) ∧
    formatToken? .backgroundColor (.text "var(--my_color)".toList) = some "bg-[var(--my_color)]".toList ∧
      (compileClass? "bg-[var(--my_color)]".toList).map Rule.declarations =
        some (declare "background-color" "var(--my color)") := by
  decide +kernel

end TsxWorkbench.Edit
