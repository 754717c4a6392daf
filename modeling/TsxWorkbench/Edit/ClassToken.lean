/-
Utility classes as the style editor sees them. `matchesField` says which classes belong to the category of a field,
`formatToken?` gives the class for a value, and `updateClasses` takes every class of the updated categories out of a
class list and puts the new ones at its end.
-/
import TsxWorkbench.Edit.Field
import TsxWorkbench.Text.Blank
import TsxWorkbench.Text.Letters
import TsxWorkbench.Utility.Value

namespace TsxWorkbench.Edit

open Number Text Utility

/-! ## Shapes of classes -/

def isSmallLetter (c : Char) : Bool := 'a' ≤ c && c ≤ 'z'

def plainColours : List String := ["inherit", "current", "transparent", "black", "white"]

/-- shades from 50 to 950, and their like up to 900 by hundreds -/
def isShade (cs : List Char) : Bool :=
  cs == "50".toList || cs == "950".toList ||
    match cs with
    | [hundreds, tens, units] => '1' ≤ hundreds && hundreds ≤ '9' && tens == '0' && units == '0'
    | _ => false

/-- a colour by name, or a family of small letters with a shade -/
def isColourName (cs : List Char) : Bool :=
  plainColours.contains (String.ofList cs) ||
    match splitFirst? '-' cs with
    | some (family, shade) => !family.isEmpty && family.all isSmallLetter && isShade shade
    | none => false

private theorem isDigit_of_mem_shade {c : Char} {cs : List Char} (h : isShade cs = true) (hc : c ∈ cs) :
    isDigit c = true := by
  unfold isShade at h
  rw [Bool.or_eq_true, Bool.or_eq_true, beq_iff_eq, beq_iff_eq] at h
  rcases h with (rfl | rfl) | h
  · have hall : "50".toList.all isDigit = true := by decide
    exact List.all_eq_true.1 hall c hc
  · have hall : "950".toList.all isDigit = true := by decide
    exact List.all_eq_true.1 hall c hc
  · split at h
    · rename_i d tens units
      simp only [Bool.and_eq_true, decide_eq_true_eq, beq_iff_eq] at h
      obtain ⟨⟨⟨hlow, hhigh⟩, rfl⟩, rfl⟩ := h
      have hlow : 49 ≤ d.toNat := UInt32.le_iff_toNat_le.1 (Char.le_def.1 hlow)
      have hhigh : d.toNat ≤ 57 := UInt32.le_iff_toNat_le.1 (Char.le_def.1 hhigh)
      simp only [List.mem_cons, List.not_mem_nil, or_false] at hc
      rcases hc with rfl | rfl | rfl
      · simp [isDigit, hhigh, Nat.le_of_succ_le hlow]
      · rfl
      · rfl
    · cases h

/-- a colour by name is made of small letters, digits and a hyphen -/
theorem isColourName_chars {cs : List Char} (h : isColourName cs = true) {c : Char} (hc : c ∈ cs) :
    isSmallLetter c = true ∨ isDigit c = true ∨ c = '-' := by
  unfold isColourName at h
  rw [Bool.or_eq_true] at h
  rcases h with hplain | hfamily
  · have hname : cs ∈ plainColours.map String.toList :=
      List.mem_map.2 ⟨_, List.contains_iff_mem.1 hplain, String.toList_ofList⟩
    have hletters : ((plainColours.map String.toList).all fun k => k.all isSmallLetter) = true := by decide
    exact .inl (List.all_eq_true.1 (List.all_eq_true.1 hletters cs hname) c hc)
  · split at hfamily
    · rename_i family shade hsplit
      simp only [Bool.and_eq_true, List.all_eq_true] at hfamily
      rw [eq_of_splitFirst? hsplit, List.mem_append, List.mem_cons] at hc
      rcases hc with hletter | rfl | hdigit
      · exact .inl (hfamily.1.2 c hletter)
      · exact .inr (.inr rfl)
      · exact .inr (.inl (isDigit_of_mem_shade hfamily.2 hdigit))
    · cases hfamily

/-- a colour by name holds no colon, slash or bracket -/
theorem isColourName_solid {cs : List Char} (h : isColourName cs = true) {c : Char} (hc : c ∈ cs) :
    c ≠ ':' ∧ c ≠ '/' ∧ c ≠ '[' := by
  have hkind := isColourName_chars h hc
  refine ⟨?_, ?_, ?_⟩ <;> rintro rfl <;> exact absurd hkind (by decide)

def colourFunctions : List String := ["rgb(", "rgba(", "hsl(", "hsla("]

/-- contents of square brackets that are a colour: hexadecimal, a function, or a word -/
def isBracketColour (inner : List Char) : Bool :=
  (match inner with
    | '#' :: hex => 3 ≤ hex.length && hex.length ≤ 8 && hex.all isHexDigit
    | _ => false) ||
  (!inner.isEmpty && inner.all isSmallLetter) ||
  colourFunctions.any fun f =>
    match (stripStart? f.toList inner).bind (stripEnd? [')']) with
    | some args => !args.contains ']'
    | none => false

def bracketed? (cs : List Char) : Option (List Char) := (stripStart? ['['] cs).bind (stripEnd? [']'])

def isColourBase (cs : List Char) : Bool := isColourName cs || ((bracketed? cs).map isBracketColour).getD false

/-- a colour with or without an opacity of one to three digits -/
def isColour (cs : List Char) : Bool :=
  isColourBase cs ||
    match splitLast? '/' cs with
    | some (base, opacity) =>
      isColourBase base && 1 ≤ opacity.length && opacity.length ≤ 3 && opacity.all isDecimalDigit
    | none => false

/-- digits, and a point with more digits if there is one -/
def isPlainNumber (cs : List Char) : Bool :=
  match splitFirst? '.' cs with
  | some (whole, fraction) =>
    !whole.isEmpty && whole.all isDecimalDigit && !fraction.isEmpty && fraction.all isDecimalDigit
  | none => !cs.isEmpty && cs.all isDecimalDigit

def isMeasure (units : List String) (cs : List Char) : Bool :=
  match bracketed? cs with
  | some inner => units.any fun u => ((stripEnd? u.toList inner).map isPlainNumber).getD false
  | none => false

def isSizeBase (cs : List Char) : Bool :=
  ["xs", "sm", "base", "lg", "xl"].contains (String.ofList cs) ||
    (match cs with
      | [d, 'x', 'l'] => '2' ≤ d && d ≤ '9'
      | _ => false) ||
    isMeasure ["px", "rem", "em"] cs

/-- a text size with or without a line height after a slash -/
def isTextSize (cs : List Char) : Bool :=
  match splitFirst? '/' cs with
  | some (base, height) => isSizeBase base && !height.isEmpty && !height.any isBlank
  | none => isSizeBase cs

def isWeight (cs : List Char) : Bool :=
  (fontWeights.lookup (String.ofList cs)).isSome ||
    match bracketed? cs with
    | some inner => !inner.isEmpty && inner.all isDecimalDigit
    | none => false

def isWidth (cs : List Char) : Bool :=
  ["0", "2", "4", "8"].contains (String.ofList cs) || isMeasure ["px"] cs

def afterName (name : String) (p : List Char → Bool) (cs : List Char) : Bool :=
  ((stripStart? (name ++ "-").toList cs).map p).getD false

/-- a class in the category that a field writes; an exclamation mark in front does not matter, a variant does -/
def matchesField (field : StyleField) (token : List Char) : Bool :=
  let body := match token with
    | '!' :: rest => rest
    | _ => token
  match field with
  | .backgroundColor => afterName "bg" isColour body
  | .textColor => afterName "text" isColour body
  | .borderColor => afterName "border" isColour body
  | .fontSize => afterName "text" isTextSize body
  | .fontWeight => afterName "font" isWeight body
  | .borderWidth => body == "border".toList || afterName "border" isWidth body
  | .borderRadius =>
    body == "rounded".toList || afterName "rounded" (fun cs => !cs.isEmpty && !cs.any isBlank) body

/-! ## Classes for values -/

/-- a hexadecimal colour in small letters, with short forms doubled -/
def normalizeHex? (value : List Char) : Option (List Char) :=
  match trim value with
  | '#' :: digits =>
    if digits.all isHexDigit && [3, 4, 6, 8].contains digits.length then
      let small := lowerAscii digits
      some ('#' :: if small.length ≤ 4 then small.flatMap fun c => [c, c] else small)
    else none
  | _ => none

def colourToken? (name : String) (value : List Char) : Option (List Char) :=
  let value := trim value
  if value.isEmpty then none
  else match normalizeHex? value with
    | some hex => some ((name ++ "-[").toList ++ hex ++ [']'])
    | none =>
      if isColourName value then some ((name ++ "-").toList ++ value)
      else some ((name ++ "-[").toList ++ value.map (fun c => if c = ' ' then '_' else c) ++ [']'])

/-- a length in pixels that is finite and not negative -/
def pixels? (value : StyleValue) : Option Binary64 :=
  let number := match value with
    | .number x => some x
    | .text t =>
      let t := trim t
      decimal? (trim ((stripEnd? "px".toList t).getD t))
  match number with
  | some (.finite negative m q) => if negative && m != 0 then none else some (.finite negative m q)
  | _ => none

/-- the class of a length in pixels, in square brackets -/
def pixelToken (name : String) (x : Binary64) : List Char :=
  (name ++ "-[").toList ++ x.scriptText ++ "px]".toList

/-- the class of a whole number of pixels, if the table has it -/
def scaled? (table : List (Nat × String)) (x : Binary64) : Option (List Char) :=
  (table.find? fun row => x.equal (.ofNat row.1)).map fun row => row.2.toList

def radiusScale : List (Nat × String) :=
  [(0, "rounded-none"), (2, "rounded-sm"), (4, "rounded"), (6, "rounded-md"), (8, "rounded-lg"), (12, "rounded-xl"),
   (16, "rounded-2xl"), (24, "rounded-3xl"), (9999, "rounded-full")]

def fontScale : List (Nat × String) :=
  [(12, "text-xs"), (14, "text-sm"), (16, "text-base"), (18, "text-lg"), (20, "text-xl"), (24, "text-2xl"),
   (30, "text-3xl"), (36, "text-4xl"), (48, "text-5xl"), (60, "text-6xl"), (72, "text-7xl"), (96, "text-8xl"),
   (128, "text-9xl")]

def widthScale : List (Nat × String) :=
  [(0, "border-0"), (1, "border"), (2, "border-2"), (4, "border-4"), (8, "border-8")]

/-- the step from 1 to 9 nearest to a weight in hundreds -/
def weightStep (x : Binary64) : Nat :=
  match x.divNat 100 with
  | .finite false m q =>
    let r := Binary64.ratio m q
    max 1 (min 9 ((2 * r.1 + r.2) / (2 * r.2)))
  | .infinite false => 9
  | _ => 1

def weightToken? (value : StyleValue) : Option (List Char) :=
  let numeric (x : Binary64) : Option (List Char) :=
    if x.isFinite then (fontWeights[weightStep x - 1]?).map fun w => ("font-" ++ w.1).toList else none
  match value with
  | .number x => numeric x
  | .text t =>
    let t := trim t
    if (fontWeights.lookup (String.ofList t)).isSome then some ("font-".toList ++ t) else (decimal? t).bind numeric

/-- the class that gives a field a value, if there is one -/
def formatToken? (field : StyleField) (value : StyleValue) : Option (List Char) :=
  match field with
  | .backgroundColor => value.text?.bind (colourToken? "bg")
  | .textColor => value.text?.bind (colourToken? "text")
  | .borderColor => value.text?.bind (colourToken? "border")
  | .borderWidth => (pixels? value).map fun x => (scaled? widthScale x).getD (pixelToken "border" x)
  | .borderRadius => (pixels? value).map fun x => (scaled? radiusScale x).getD (pixelToken "rounded" x)
  | .fontSize => (pixels? value).map fun x => (scaled? fontScale x).getD (pixelToken "text" x)
  | .fontWeight => weightToken? value

/-- a class list without the classes of the updated fields, and with the new ones at its end -/
def updateClasses (classes : List Char) (updates : List (StyleField × Option (List Char))) : List Char :=
  let kept := (words classes).filter fun token => !updates.any fun u => matchesField u.1 token
  List.intercalate [' '] (kept ++ updates.filterMap Prod.snd)

end TsxWorkbench.Edit
