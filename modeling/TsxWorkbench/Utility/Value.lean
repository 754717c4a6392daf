/-
Values of utilities: the text after the name of a utility, read as a scale step, a fraction, a named size, a colour or
an arbitrary value in square brackets. Every reader gives the CSS value or nothing.
-/
import TsxWorkbench.Utility.Palette

namespace TsxWorkbench.Utility

open Number Text

/-- contents of an arbitrary value in square brackets, with underscores read as spaces -/
def arbitrary? (value : List Char) : Option (List Char) :=
  match value with
  | '[' :: rest =>
    match stripEnd? [']'] rest with
    | some inner => if inner.isEmpty then none else some (inner.map fun c => if c = '_' then ' ' else c)
    | none => none
  | _ => none

/-- a text that starts like a number -/
def startsNumeric (value : List Char) : Bool := (value.head?.map fun c => isDigit c || c = '.').getD false

/-- functions whose value is taken for a length -/
def lengthFunctions : List String := ["calc(", "clamp(", "min(", "max("]

/-- a value that is taken for a length rather than a colour -/
def isLength (value : List Char) : Bool :=
  startsNumeric value || lengthFunctions.any fun f => f.toList.isPrefixOf value

/-- the opposite of a value -/
def negate (value : List Char) : List Char :=
  if value = "0px".toList ∨ value = "auto".toList then value
  else if startsNumeric value then '-' :: value
  else "calc(".toList ++ value ++ " * -1)".toList

def negateIf (negative : Bool) (value : List Char) : List Char := if negative then negate value else value

/-- text with a number of places, without the zeros at its end -/
def trimDecimal (places : Nat) (x : Binary64) : List Char :=
  dropEndWhile (· == '.') (dropEndWhile (· == '0') (x.fixed places))

/-- greatest whole number in 32 bits -/
def maxUnsigned32 : Nat := Nat.pow 2 32 - 1

def unsigned32? (value : List Char) : Option Nat := unsigned? maxUnsigned32 value

/-- a whole number over another, rounded once -/
def quotient (a b : Nat) : Binary64 := .ofRatio false a b

/-- a step of the spacing scale, a quarter rem each; whole and half steps exist -/
def spacingStep? (value : List Char) : Option (List Char) :=
  match decimal? value with
  | none => none
  | some n =>
    match (n.mul (.ofNat 2)).toInt? with
    | some twice => if twice < 0 then none else some ((n.mul (quotient 1 4)).scriptText ++ "rem".toList)
    | none => none

def spacing? (value : List Char) (negative : Bool) : Option (List Char) :=
  (if value = "px".toList then some "1px".toList
   else if value = ['0'] then some "0px".toList
   else match arbitrary? value with
    | some inner => some inner
    | none => spacingStep? value).map (negateIf negative)

/-- a fraction of two whole numbers as a percentage with at most six places -/
def fraction? (value : List Char) : Option (List Char) :=
  match splitFirst? '/' value with
  | none => none
  | some (a, b) =>
    match unsigned32? a, unsigned32? b with
    | some a, some b =>
      if b = 0 then none else some (trimDecimal 6 ((quotient a b).mul (.ofNat 100)) ++ ['%'])
    | _, _ => none

def sizeNames (screen : String) : List (String × String) :=
  [("auto", "auto"), ("full", "100%"), ("screen", screen), ("min", "min-content"), ("max", "max-content"),
   ("fit", "fit-content")]

def named? (table : List (String × String)) (value : List Char) : Option (List Char) :=
  (table.lookup (String.ofList value)).map String.toList

def size? (screen : String) (value : List Char) : Option (List Char) :=
  named? (sizeNames screen) value <|> fraction? value <|> spacing? value false

def inset? (value : List Char) (negative : Bool) : Option (List Char) :=
  match named? [("auto", "auto"), ("full", "100%")] value <|> fraction? value with
  | some v => some (negateIf negative v)
  | none => spacing? value negative

/-- breakpoints with their least width in pixels, from narrow to wide -/
def breakpoints : List (String × Nat) := [("sm", 640), ("md", 768), ("lg", 1024), ("xl", 1280), ("2xl", 1536)]

def maxWidths : List (String × String) :=
  [("none", "none"), ("xs", "20rem"), ("sm", "24rem"), ("md", "28rem"), ("lg", "32rem"), ("xl", "36rem"),
   ("2xl", "42rem"), ("3xl", "48rem"), ("4xl", "56rem"), ("5xl", "64rem"), ("6xl", "72rem"), ("7xl", "80rem"),
   ("prose", "65ch")]

def maxWidth? (value : List Char) : Option (List Char) :=
  match named? maxWidths value with
  | some v => some v
  | none =>
    match stripStart? "screen-".toList value with
    | some name => (breakpoints.lookup (String.ofList name)).map fun px => (toString px ++ "px").toList
    | none => size? "100vw" value

/-! ## Colours -/

/-- opacity after a slash: a percentage, or any number in square brackets -/
def alpha? (value : List Char) : Option Binary64 :=
  match arbitrary? value with
  | some inner => decimal? inner
  | none =>
    match unsigned32? value with
    | some a => if a ≤ 100 then some (quotient a 100) else none
    | none => none

/-- a colour and its opacity, if the text after the last slash is one -/
def splitAlpha (value : List Char) : List Char × Option Binary64 :=
  match splitLast? '/' value with
  | none => (value, none)
  | some (base, tail) =>
    match alpha? tail with
    | some a => (base, some a)
    | none => (value, none)

def colourNames : List (String × String) :=
  [("inherit", "inherit"), ("current", "currentColor"), ("transparent", "transparent")]

/-- a colour without opacity; an arbitrary length is none -/
def baseColour? (base : List Char) : Option (List Char) :=
  match named? colourNames base with
  | some v => some v
  | none =>
    match arbitrary? base with
    | some inner => if isLength inner then none else some inner
    | none => (lookup? base).map String.toList

/-- a colour with an opacity -/
def withAlpha (resolved : List Char) (alpha : Binary64) : List Char :=
  match channels? resolved with
  | some (r, g, b) =>
    s!"rgb({r} {g} {b} / ".toList ++ alpha.scriptText ++ [')']
  | none =>
    "color-mix(in srgb, ".toList ++ resolved ++ ' ' :: (alpha.mul (.ofNat 100)).scriptText ++ "%, transparent)".toList

def colour? (value : List Char) : Option (List Char) :=
  let parts := splitAlpha value
  match baseColour? parts.1, parts.2 with
  | none, _ => none
  | some resolved, none => some resolved
  | some resolved, some alpha => some (withAlpha resolved alpha)

/-! ## Text -/

/-- font sizes with their line heights -/
def fontSizes : List (String × String × String) :=
  [("xs", "0.75rem", "1rem"), ("sm", "0.875rem", "1.25rem"), ("base", "1rem", "1.5rem"),
   ("lg", "1.125rem", "1.75rem"), ("xl", "1.25rem", "1.75rem"), ("2xl", "1.5rem", "2rem"),
   ("3xl", "1.875rem", "2.25rem"), ("4xl", "2.25rem", "2.5rem"), ("5xl", "3rem", "1"), ("6xl", "3.75rem", "1"),
   ("7xl", "4.5rem", "1"), ("8xl", "6rem", "1"), ("9xl", "8rem", "1")]

def fontWeights : List (String × String) :=
  [("thin", "100"), ("extralight", "200"), ("light", "300"), ("normal", "400"), ("medium", "500"),
   ("semibold", "600"), ("bold", "700"), ("extrabold", "800"), ("black", "900")]

def fontFamilies : List (String × String) :=
  [("sans", "ui-sans-serif, system-ui, sans-serif"), ("serif", "ui-serif, Georgia, Cambria, serif"),
   ("mono", "ui-monospace, SFMono-Regular, Menlo, monospace")]

def lineHeights : List (String × String) :=
  [("none", "1"), ("tight", "1.25"), ("snug", "1.375"), ("normal", "1.5"), ("relaxed", "1.625"), ("loose", "2")]

def leading? (value : List Char) : Option (List Char) :=
  named? lineHeights value <|> arbitrary? value <|> spacing? value false

def trackings : List (String × String) :=
  [("tighter", "-0.05em"), ("tight", "-0.025em"), ("normal", "0em"), ("wide", "0.025em"), ("wider", "0.05em"),
   ("widest", "0.1em")]

def tracking? (value : List Char) (negative : Bool) : Option (List Char) :=
  (named? trackings value <|> arbitrary? value).map (negateIf negative)

/-! ## Numbers -/

def opacity? (value : List Char) : Option (List Char) :=
  match arbitrary? value with
  | some inner => some inner
  | none =>
    match unsigned32? value with
    | some n => if n ≤ 100 then some (quotient n 100).scriptText else none
    | none => none

def integer? (value : List Char) (negative : Bool) : Option (List Char) :=
  match arbitrary? value with
  | some inner => some inner
  | none => (signed64? value).map fun n => (toString (if negative then -n else n)).toList

def order? (value : List Char) (negative : Bool) : Option (List Char) :=
  match named? [("first", "-9999"), ("last", "9999"), ("none", "0")] value with
  | some v => some v
  | none => integer? value negative

def gridTemplate? (value : List Char) : Option (List Char) :=
  match named? [("none", "none"), ("subgrid", "subgrid")] value <|> arbitrary? value with
  | some v => some v
  | none =>
    match unsigned32? value with
    | some n => if 1 ≤ n ∧ n ≤ 12 then some s!"repeat({n}, minmax(0, 1fr))".toList else none
    | none => none

def gridSpan? (value : List Char) : Option (List Char) :=
  if value = "full".toList then some "1 / -1".toList
  else match unsigned32? value with
    | some n => if 0 < n then some s!"span {n} / span {n}".toList else none
    | none => none

def borderWidth? : Option (List Char) → Option (List Char)
  | none => some "1px".toList
  | some v =>
    if ["0", "2", "4", "8"].contains (String.ofList v) then some (v ++ "px".toList)
    else match arbitrary? v with
      | some inner => if isLength inner then some inner else none
      | none => none

def radii : List (String × String) :=
  [("none", "0px"), ("sm", "0.125rem"), ("md", "0.375rem"), ("lg", "0.5rem"), ("xl", "0.75rem"), ("2xl", "1rem"),
   ("3xl", "1.5rem"), ("full", "9999px")]

def radius? : Option (List Char) → Option (List Char)
  | none => some "0.25rem".toList
  | some v => named? radii v <|> arbitrary? v

def shadows : List (String × String) :=
  [("sm", "0 1px 2px 0 rgb(0 0 0 / 0.05)"),
   ("md", "0 4px 6px -1px rgb(0 0 0 / 0.1), 0 2px 4px -2px rgb(0 0 0 / 0.1)"),
   ("lg", "0 10px 15px -3px rgb(0 0 0 / 0.1), 0 4px 6px -4px rgb(0 0 0 / 0.1)"),
   ("xl", "0 20px 25px -5px rgb(0 0 0 / 0.1), 0 8px 10px -6px rgb(0 0 0 / 0.1)"),
   ("2xl", "0 25px 50px -12px rgb(0 0 0 / 0.25)"), ("inner", "inset 0 2px 4px 0 rgb(0 0 0 / 0.05)"),
   ("none", "0 0 #0000")]

def shadow? : Option (List Char) → Option (List Char)
  | none => some "0 1px 3px 0 rgb(0 0 0 / 0.1), 0 1px 2px -1px rgb(0 0 0 / 0.1)".toList
  | some v => named? shadows v <|> arbitrary? v

def millis? (value : List Char) : Option (List Char) :=
  match arbitrary? value with
  | some inner => some inner
  | none => (unsigned32? value).map fun n => s!"{n}ms".toList

end TsxWorkbench.Utility
