/-
Utilities that are a name and a value. The longest known name that starts the utility decides; what a value may be and
which properties it sets depends on the name. Some names have a negative form.
-/
import TsxWorkbench.Utility.Keyword

namespace TsxWorkbench.Utility

open Number

/-- names with the properties they set -/
abbrev SideTable := List (String × List String)

def paddingSides : SideTable :=
  [("p", ["padding"]), ("px", ["padding-left", "padding-right"]), ("py", ["padding-top", "padding-bottom"]),
   ("pt", ["padding-top"]), ("pr", ["padding-right"]), ("pb", ["padding-bottom"]), ("pl", ["padding-left"])]

def marginSides : SideTable :=
  [("m", ["margin"]), ("mx", ["margin-left", "margin-right"]), ("my", ["margin-top", "margin-bottom"]),
   ("mt", ["margin-top"]), ("mr", ["margin-right"]), ("mb", ["margin-bottom"]), ("ml", ["margin-left"])]

def insetSides : SideTable :=
  [("inset", ["inset"]), ("inset-x", ["left", "right"]), ("inset-y", ["top", "bottom"]), ("top", ["top"]),
   ("right", ["right"]), ("bottom", ["bottom"]), ("left", ["left"])]

def gapSides : SideTable := [("gap", ["gap"]), ("gap-x", ["column-gap"]), ("gap-y", ["row-gap"])]

def borderSides : SideTable :=
  [("border", ["border-width"]), ("border-x", ["border-left-width", "border-right-width"]),
   ("border-y", ["border-top-width", "border-bottom-width"]), ("border-t", ["border-top-width"]),
   ("border-r", ["border-right-width"]), ("border-b", ["border-bottom-width"]),
   ("border-l", ["border-left-width"])]

def roundedCorners : SideTable :=
  [("rounded", ["border-radius"]), ("rounded-t", ["border-top-left-radius", "border-top-right-radius"]),
   ("rounded-r", ["border-top-right-radius", "border-bottom-right-radius"]),
   ("rounded-b", ["border-bottom-right-radius", "border-bottom-left-radius"]),
   ("rounded-l", ["border-top-left-radius", "border-bottom-left-radius"]),
   ("rounded-tl", ["border-top-left-radius"]), ("rounded-tr", ["border-top-right-radius"]),
   ("rounded-br", ["border-bottom-right-radius"]), ("rounded-bl", ["border-bottom-left-radius"])]

def sideNames : List String :=
  (paddingSides ++ marginSides ++ insetSides ++ gapSides ++ borderSides ++ roundedCorners).map Prod.fst

def plainNames : List String :=
  ["w", "h", "size", "min-w", "min-h", "max-w", "max-h", "basis", "text", "bg", "fill", "stroke", "font", "leading",
   "tracking", "opacity", "z", "order", "grid-cols", "grid-rows", "col-span", "row-span", "shadow", "duration"]

/-- names with a negative form -/
def negatable : List String :=
  ["m", "mx", "my", "mt", "mr", "mb", "ml", "inset", "inset-x", "inset-y", "top", "right", "bottom", "left", "z",
   "order", "tracking"]

/-- the value that follows a name, if the utility starts with it; a name alone has none -/
def valueAfter? (name : String) (utility : List Char) : Option (Option (List Char)) :=
  if utility = name.toList then some none
  else match Text.stripStart? (name ++ "-").toList utility with
    | some [] => none
    | some rest => some (some rest)
    | none => none

/-- the longest known name that starts a utility, with the value after it -/
def splitName? (utility : List Char) : Option (String × Option (List Char)) :=
  (sideNames ++ plainNames).foldl (fun best name =>
    match valueAfter? name utility with
    | none => best
    | some value =>
      match best with
      | some b => if b.1.length ≤ name.length then some (name, value) else best
      | none => some (name, value)) none

/-! ## Declarations -/

def one (property : String) (value : Option (List Char)) : Option (List Declaration) :=
  value.map fun v => [⟨property, v⟩]

/-- text utilities: a font size with its line height, an arbitrary length, or a colour -/
def textUtility? (value : List Char) : Option (List Declaration) :=
  match fontSizes.lookup (String.ofList value) with
  | some (size, height) => some (declare "font-size" size ++ declare "line-height" height)
  | none =>
    match arbitrary? value with
    | some inner => if isLength inner then some [⟨"font-size", inner⟩] else one "color" (colour? value)
    | none => one "color" (colour? value)

/-- font utilities: a weight by name or number, or a family -/
def fontUtility? (value : List Char) : Option (List Declaration) :=
  match named? fontWeights value with
  | some w => some [⟨"font-weight", w⟩]
  | none =>
    match named? fontFamilies value with
    | some f => some [⟨"font-family", f⟩]
    | none => (arbitrary? value).map fun inner =>
        [⟨if (unsigned32? inner).isSome then "font-weight" else "font-family", inner⟩]

/-- declarations of a name that sets fixed sides -/
def sides? (name : String) (value : Option (List Char)) (negative : Bool) :
    Option (Option (List Declaration)) :=
  match paddingSides.lookup name with
  | some ps => some ((value.bind fun v => spacing? v false).map (declareAll ps))
  | none =>
  match marginSides.lookup name with
  | some ps => some ((value.bind fun v =>
      if v = "auto".toList then some v else spacing? v negative).map (declareAll ps))
  | none =>
  match insetSides.lookup name with
  | some ps => some ((value.bind fun v => inset? v negative).map (declareAll ps))
  | none =>
  match gapSides.lookup name with
  | some ps => some ((value.bind fun v => spacing? v false).map (declareAll ps))
  | none =>
  match borderSides.lookup name with
  | some ps => some (match borderWidth? value with
      | some width => some (declareAll ps width)
      | none => if name = "border" then one "border-color" (value.bind colour?) else none)
  | none =>
  match roundedCorners.lookup name with
  | some ps => some ((radius? value).map (declareAll ps))
  | none => none

/-- declarations of a name with a value -/
def valued? (name : String) (value : List Char) (negative : Bool) : Option (List Declaration) :=
  match name with
  | "w" => one "width" (size? "100vw" value)
  | "h" => one "height" (size? "100vh" value)
  | "size" => (size? "100%" value).map (declareAll ["width", "height"])
  | "min-w" => one "min-width" (size? "100vw" value)
  | "min-h" => one "min-height" (size? "100vh" value)
  | "max-w" => one "max-width" (maxWidth? value)
  | "max-h" => one "max-height" (size? "100vh" value)
  | "basis" => one "flex-basis" (size? "100vw" value)
  | "text" => textUtility? value
  | "bg" => one "background-color" (colour? value)
  | "fill" => one "fill" (colour? value)
  | "stroke" => one "stroke" (colour? value)
  | "font" => fontUtility? value
  | "leading" => one "line-height" (leading? value)
  | "tracking" => one "letter-spacing" (tracking? value negative)
  | "opacity" => one "opacity" (opacity? value)
  | "z" => one "z-index" (if value = "auto".toList then some value else integer? value negative)
  | "order" => one "order" (order? value negative)
  | "grid-cols" => one "grid-template-columns" (gridTemplate? value)
  | "grid-rows" => one "grid-template-rows" (gridTemplate? value)
  | "col-span" => one "grid-column" (gridSpan? value)
  | "row-span" => one "grid-row" (gridSpan? value)
  | "duration" => one "transition-duration" (millis? value)
  | _ => none

/-- declarations of a utility -/
def resolve? (utility : List Char) (negative : Bool) : Option (List Declaration) :=
  match (if negative then none else keyword? utility) with
  | some found => some found
  | none =>
    match splitName? utility with
    | none => none
    | some (name, value) =>
      if negative && !negatable.contains name then none
      else match sides? name value negative with
        | some found => found
        | none =>
          if name = "shadow" then one "box-shadow" (shadow? value)
          else value.bind fun v => valued? name v negative

/-! ## By name -/

section

variable {utility : List Char} {v : List Char}

theorem resolve?_bg (hkeyword : keyword? utility = none) (hname : splitName? utility = some ("bg", some v)) :
    resolve? utility false = (colour? v).map fun c => [⟨"background-color", c⟩] := by
  simp [resolve?, hkeyword, hname, sides?, paddingSides, marginSides, insetSides, gapSides, borderSides,
    roundedCorners, List.lookup_cons, valued?, one]

theorem resolve?_text (hkeyword : keyword? utility = none) (hname : splitName? utility = some ("text", some v)) :
    resolve? utility false = textUtility? v := by
  simp [resolve?, hkeyword, hname, sides?, paddingSides, marginSides, insetSides, gapSides, borderSides,
    roundedCorners, List.lookup_cons, valued?]

theorem resolve?_border (hkeyword : keyword? utility = none) (hname : splitName? utility = some ("border", some v)) :
    resolve? utility false = match borderWidth? (some v) with
      | some width => some [⟨"border-width", width⟩]
      | none => (colour? v).map fun c => [⟨"border-color", c⟩] := by
  simp [resolve?, hkeyword, hname, sides?, paddingSides, marginSides, insetSides, gapSides, borderSides,
    List.lookup_cons, one, declareAll]

theorem resolve?_rounded (hkeyword : keyword? utility = none) (hname : splitName? utility = some ("rounded", some v)) :
    resolve? utility false = (radius? (some v)).map (declareAll ["border-radius"]) := by
  simp [resolve?, hkeyword, hname, sides?, paddingSides, marginSides, insetSides, gapSides, borderSides,
    roundedCorners, List.lookup_cons]

theorem resolve?_font (hkeyword : keyword? utility = none) (hname : splitName? utility = some ("font", some v)) :
    resolve? utility false = fontUtility? v := by
  simp [resolve?, hkeyword, hname, sides?, paddingSides, marginSides, insetSides, gapSides, borderSides,
    roundedCorners, List.lookup_cons, valued?]

theorem resolve?_border_alone (hkeyword : keyword? utility = none)
    (hname : splitName? utility = some ("border", none)) :
    resolve? utility false = some [⟨"border-width", "1px".toList⟩] := by
  simp [resolve?, hkeyword, hname, sides?, paddingSides, marginSides, insetSides, gapSides, borderSides,
    List.lookup_cons, borderWidth?, declareAll]

/-- names of texts, fonts and backgrounds need a value -/
theorem resolve?_unvalued {name : String} (hvalued : name ∈ ["bg", "text", "font"])
    (hkeyword : keyword? utility = none) (hname : splitName? utility = some (name, none)) :
    resolve? utility false = none := by
  simp only [List.mem_cons, List.not_mem_nil, or_false] at hvalued
  rcases hvalued with rfl | rfl | rfl <;>
    simp [resolve?, hkeyword, hname, sides?, paddingSides, marginSides, insetSides, gapSides, borderSides,
      roundedCorners, List.lookup_cons]

end

/-! ## Properties -/

/-- properties of names with a value of their own, and the colour that a border may have instead of a width -/
def valuedProperties : SideTable :=
  [("border", ["border-color"]), ("w", ["width"]), ("h", ["height"]), ("size", ["width", "height"]),
   ("min-w", ["min-width"]), ("min-h", ["min-height"]), ("max-w", ["max-width"]), ("max-h", ["max-height"]),
   ("basis", ["flex-basis"]), ("text", ["font-size", "line-height", "color"]), ("bg", ["background-color"]),
   ("fill", ["fill"]), ("stroke", ["stroke"]), ("font", ["font-weight", "font-family"]),
   ("leading", ["line-height"]), ("tracking", ["letter-spacing"]), ("opacity", ["opacity"]), ("z", ["z-index"]),
   ("order", ["order"]), ("grid-cols", ["grid-template-columns"]), ("grid-rows", ["grid-template-rows"]),
   ("col-span", ["grid-column"]), ("row-span", ["grid-row"]), ("shadow", ["box-shadow"]),
   ("duration", ["transition-duration"])]

/-- names with the properties that they may set -/
def settable : SideTable :=
  paddingSides ++ (marginSides ++ (insetSides ++ (gapSides ++ (borderSides ++ (roundedCorners ++ valuedProperties)))))

/-- a property that a name may set -/
def MaySet (name property : String) : Prop := ∃ row ∈ settable, row.1 = name ∧ property ∈ row.2

instance (name property : String) : Decidable (MaySet name property) :=
  inferInstanceAs (Decidable (∃ row ∈ settable, row.1 = name ∧ property ∈ row.2))

section

variable {name property : String} {ds : List Declaration} {d : Declaration}

private theorem one_maySet {value : Option (List Char)} (hset : MaySet name property) (h : one property value = some ds)
    (hd : d ∈ ds) : MaySet name d.property := by
  obtain ⟨v, -, rfl⟩ := Option.map_eq_some_iff.1 h
  rw [List.mem_singleton.1 hd]
  exact hset

private theorem declareAll_maySet {properties : List String} {value : Option (List Char)}
    (hset : ∀ p ∈ properties, MaySet name p) (h : value.map (declareAll properties) = some ds) (hd : d ∈ ds) :
    MaySet name d.property := by
  obtain ⟨v, -, rfl⟩ := Option.map_eq_some_iff.1 h
  obtain ⟨p, hp, rfl⟩ := List.mem_map.1 hd
  exact hset p hp

/-- a name of a table that is part of all names may set the properties of its row -/
private theorem maySet_of_lookup {table : SideTable} (hsub : ∀ row ∈ table, row ∈ settable) {properties : List String}
    (h : table.lookup name = some properties) : ∀ p ∈ properties, MaySet name p := by
  obtain ⟨before, after, rfl, -⟩ := List.lookup_eq_some_iff.1 h
  intro p hp
  exact ⟨(name, properties), hsub _ (List.mem_append_right _ List.mem_cons_self), rfl, hp⟩

private theorem sides?_maySet {value : Option (List Char)} {negative : Bool}
    (h : sides? name value negative = some (some ds)) (hd : d ∈ ds) : MaySet name d.property := by
  unfold sides? at h
  split at h
  · rename_i hrow
    exact declareAll_maySet (maySet_of_lookup (by decide) hrow) (Option.some.inj h) hd
  split at h
  · rename_i hrow
    exact declareAll_maySet (maySet_of_lookup (by decide) hrow) (Option.some.inj h) hd
  split at h
  · rename_i hrow
    exact declareAll_maySet (maySet_of_lookup (by decide) hrow) (Option.some.inj h) hd
  split at h
  · rename_i hrow
    exact declareAll_maySet (maySet_of_lookup (by decide) hrow) (Option.some.inj h) hd
  split at h
  · rename_i properties hrow
    have hfound := Option.some.inj h
    split at hfound
    · cases hfound
      obtain ⟨p, hp, rfl⟩ := List.mem_map.1 hd
      have hborders : ∀ row ∈ borderSides, row ∈ settable := by decide
      exact maySet_of_lookup hborders hrow p hp
    · split at hfound
      · rename_i hborder
        exact one_maySet (hborder ▸ by decide) hfound hd
      · cases hfound
  split at h
  · rename_i hrow
    exact declareAll_maySet (maySet_of_lookup (by decide) hrow) (Option.some.inj h) hd
  · cases h

private theorem textUtility?_maySet {v : List Char} (h : textUtility? v = some ds) (hd : d ∈ ds) :
    MaySet "text" d.property := by
  unfold textUtility? at h
  split at h
  · cases h
    simp only [declare, List.cons_append, List.nil_append, List.mem_cons, List.not_mem_nil, or_false] at hd
    rcases hd with rfl | rfl
    · exact show MaySet "text" "font-size" by decide
    · exact show MaySet "text" "line-height" by decide
  · split at h
    · split at h
      · cases h
        rw [List.mem_singleton.1 hd]
        exact show MaySet "text" "font-size" by decide
      · exact one_maySet (by decide) h hd
    · exact one_maySet (by decide) h hd

private theorem fontUtility?_maySet {v : List Char} (h : fontUtility? v = some ds) (hd : d ∈ ds) :
    MaySet "font" d.property := by
  have hweight : MaySet "font" "font-weight" := by decide
  have hfamily : MaySet "font" "font-family" := by decide
  unfold fontUtility? at h
  split at h
  · cases h
    rw [List.mem_singleton.1 hd]
    exact hweight
  · split at h
    · cases h
      rw [List.mem_singleton.1 hd]
      exact hfamily
    · obtain ⟨inner, -, rfl⟩ := Option.map_eq_some_iff.1 h
      rw [List.mem_singleton.1 hd]
      dsimp only
      split
      · exact hweight
      · exact hfamily

private theorem valued?_maySet {v : List Char} {negative : Bool} (h : valued? name v negative = some ds) (hd : d ∈ ds) :
    MaySet name d.property := by
  unfold valued? at h
  split at h
  case h_3 => exact declareAll_maySet (by decide) h hd
  case h_9 => exact textUtility?_maySet h hd
  case h_13 => exact fontUtility?_maySet h hd
  case h_24 => cases h
  all_goals exact one_maySet (by decide) h hd

/-- **What a utility is read as.** It is a keyword, or a known name with or without a value, and then it sets only
properties of that name; a negative one has a name with a negative form. -/
theorem resolve?_cases {utility : List Char} {negative : Bool} (h : resolve? utility negative = some ds) :
    (negative = false ∧ keyword? utility = some ds) ∨
      ∃ name value, (negative = false → keyword? utility = none) ∧ splitName? utility = some (name, value) ∧
        (negative = true → name ∈ negatable) ∧ ∀ d ∈ ds, MaySet name d.property := by
  unfold resolve? at h
  split at h
  · rename_i found hfound
    cases h
    cases negative with
    | true => cases hfound
    | false => exact .inl ⟨rfl, hfound⟩
  · rename_i hnone
    split at h
    · cases h
    · rename_i name value hsplit
      split at h
      · cases h
      · rename_i hnegative
        refine .inr ⟨name, value, ?_, hsplit, ?_, ?_⟩
        · rintro rfl
          exact hnone
        · rintro rfl
          simpa using hnegative
        · intro d hd
          split at h
          · rename_i found hsides
            cases h
            exact sides?_maySet hsides hd
          · split at h
            · rename_i hshadow
              exact one_maySet (hshadow ▸ by decide) h hd
            · obtain ⟨v, -, hv⟩ := Option.bind_eq_some_iff.1 h
              exact valued?_maySet hv hd

end

end TsxWorkbench.Utility
