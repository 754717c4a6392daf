/-
The compiler of utility classes on a machine, the one that the workbench runs. Counts have the width of a word, whole
numbers that of a signed word, texts are cut at byte offsets and lists are read at places. What a machine cannot do ends
the run: a number out of range, a cut that is not between two characters, a place past the end of a list. Readers that
do none of this are those of the library. Memory is not counted.
-/
import TsxWorkbench.Text.Position
import TsxWorkbench.Utility.Stylesheet

namespace TsxWorkbench.Utility.Machine

open Number Text

inductive Fault where
  | overflow
  | cut
  | place
deriving DecidableEq, Repr

abbrev Run := Except Fault

@[simp]
theorem ok_bind {α β : Type} (a : α) (next : α → Run β) : (Except.ok a : Run α) >>= next = next a := rfl

@[simp]
theorem error_bind {α β : Type} (fault : Fault) (next : α → Run β) :
    (Except.error fault : Run α) >>= next = .error fault := rfl

/-! ## Operations -/

/-- a count, which must fit a word of 64 bits -/
def word (n : Nat) : Run Nat := if n < Nat.pow 2 64 then .ok n else .error .overflow

/-- a whole number, which must fit a signed word of 64 bits -/
def signedWord (n : Int) : Run Int :=
  if -Int.pow 2 63 ≤ n ∧ n < Int.pow 2 63 then .ok n else .error .overflow

/-- an offset between two characters of a text, or at an end of it -/
def isBoundary : List Char → Nat → Bool
  | _, 0 => true
  | [], _ + 1 => false
  | c :: cs, n + 1 => c.utf8Size ≤ n + 1 && isBoundary cs (n + 1 - c.utf8Size)

/-- the text from one offset up to another -/
def cut (cs : List Char) (lo hi : Nat) : Run (List Char) :=
  if lo ≤ hi ∧ isBoundary cs lo ∧ isBoundary cs hi then .ok (sliceBytes lo hi cs) else .error .cut

/-- the text from an offset on -/
def cutFrom (cs : List Char) (lo : Nat) : Run (List Char) := cut cs lo (byteLen cs)

/-- the item at a place of a list -/
def item {α : Type} (items : List α) (i : Nat) : Run α :=
  match items[i]? with
  | some a => .ok a
  | none => .error .place

/-! ## Colours -/

/-- hexadecimal text of a named colour, by the place of its shade -/
def lookup (name : List Char) : Run (Option String) :=
  if name = "black".toList then .ok (some "#000000")
  else if name = "white".toList then .ok (some "#ffffff")
  else match splitLast? '-' name with
    | none => .ok none
    | some (family, shade) =>
      match shades.idxOf? (String.ofList shade), palette.lookup (String.ofList family) with
      | some i, some colours => do return some (← item colours i)
      | _, _ => .ok none

/-- two digits from an offset on -/
def channel (digits : List Char) (i : Nat) : Run (Option Nat) := do
  let stop ← word (i + 2)
  return natural? 16 (← cut digits i stop)

/-- red, green and blue of a hexadecimal colour -/
def channels (hex : List Char) : Run (Option (Nat × Nat × Nat)) :=
  match hex with
  | '#' :: digits =>
    if !digits.all isHexDigit then .ok none
    else
      let six := if byteLen digits = 3 then digits.flatMap fun c => [c, c] else digits
      if byteLen digits = 3 ∨ byteLen digits = 6 then do
        match ← channel six 0, ← channel six 2, ← channel six 4 with
        | some r, some g, some b => return some (r, g, b)
        | _, _, _ => return none
      else .ok none
  | _ => .ok none

def withAlpha (resolved : List Char) (alpha : Binary64) : Run (List Char) := do
  match ← channels resolved with
  | some (r, g, b) => return s!"rgb({r} {g} {b} / ".toList ++ alpha.scriptText ++ [')']
  | none =>
    return "color-mix(in srgb, ".toList ++ resolved ++
      ' ' :: (alpha.mul (.ofNat 100)).scriptText ++ "%, transparent)".toList

def baseColour (base : List Char) : Run (Option (List Char)) :=
  match named? colourNames base with
  | some v => .ok (some v)
  | none =>
    match arbitrary? base with
    | some inner => .ok (if isLength inner then none else some inner)
    | none => do return (← lookup base).map String.toList

def colour (value : List Char) : Run (Option (List Char)) := do
  let parts := splitAlpha value
  match ← baseColour parts.1, parts.2 with
  | none, _ => return none
  | some resolved, none => return some resolved
  | some resolved, some alpha => return some (← withAlpha resolved alpha)

/-! ## Numbers -/

def integer (value : List Char) (negative : Bool) : Run (Option (List Char)) :=
  match arbitrary? value with
  | some inner => .ok (some inner)
  | none =>
    match signed64? value with
    | none => .ok none
    | some n => do
      let shown ← if negative then signedWord (-n) else pure n
      return some (toString shown).toList

def order (value : List Char) (negative : Bool) : Run (Option (List Char)) :=
  match named? [("first", "-9999"), ("last", "9999"), ("none", "0")] value with
  | some v => .ok (some v)
  | none => integer value negative

/-! ## Fixed names -/

/-- families whose words may hold hyphens, with the fronts that the last hyphen of a name can leave -/
def hyphenated : List (String × List String) :=
  [("whitespace", ["whitespace", "whitespace-pre", "whitespace-break"]), ("cursor", ["cursor", "cursor-not"]),
   ("object", ["object", "object-scale"])]

/-- declaration of a family for one of its words -/
def familyWord (start : String) (word : List Char) : Option (List Declaration) :=
  match families.lookup start with
  | some (property, values) => (values.lookup (String.ofList word)).map fun v => [⟨property, v.toList⟩]
  | none => none

/-- a member of a family, told by what stands before its last hyphen -/
def family (utility : List Char) : Run (Option (List Declaration)) :=
  match splitLast? '-' utility with
  | none => .ok none
  | some (front, last) =>
    match hyphenated.find? fun row => row.2.contains (String.ofList front) with
    | some (start, _) => do return familyWord start (← cutFrom utility (byteLen (start ++ "-").toList))
    | none => .ok (familyWord (String.ofList front) last)

/-- a name that starts a utility, with one of the words that may follow -/
def startsWithWord (utility : List Char) (row : String × String × List String) : Bool :=
  (row.2.2.map (row.1 ++ ·)).contains (String.ofList utility)

def keyword (utility : List Char) : Run (Option (List Declaration)) :=
  let name := String.ofList utility
  match namesOfProperty.find? fun p => p.2.contains name with
  | some p => .ok (some [⟨p.1, utility⟩])
  | none =>
    match singleKeywords.lookup name with
    | some (property, value) => .ok (some (declare property value))
    | none =>
      match startedNames.find? (startsWithWord utility) with
      | some (start, property, _) => do return some [⟨property, ← cutFrom utility (byteLen start.toList)⟩]
      | none =>
        match groupKeywords.lookup name with
        | some found => .ok (some found)
        | none => family utility

/-! ## Names with a value -/

def textUtility (value : List Char) : Run (Option (List Declaration)) :=
  match fontSizes.lookup (String.ofList value) with
  | some (size, height) => .ok (some (declare "font-size" size ++ declare "line-height" height))
  | none =>
    match arbitrary? value with
    | some inner =>
      if isLength inner then .ok (some [⟨"font-size", inner⟩]) else do return one "color" (← colour value)
    | none => do return one "color" (← colour value)

/-- declarations of a name that sets fixed sides; only a border may have a colour instead of a width -/
def sides (name : String) (value : Option (List Char)) (negative : Bool) : Run (Option (Option (List Declaration))) :=
  if name = "border" ∧ borderWidth? value = none then
    match value with
    | none => .ok (some none)
    | some v => do return some (one "border-color" (← colour v))
  else .ok (sides? name value negative)

/-- declarations of a name with a value: colours, levels and orders, and the names that need no machine -/
def valued (name : String) (value : List Char) (negative : Bool) : Run (Option (List Declaration)) :=
  match name with
  | "text" => textUtility value
  | "bg" => do return one "background-color" (← colour value)
  | "fill" => do return one "fill" (← colour value)
  | "stroke" => do return one "stroke" (← colour value)
  | "z" =>
    if value = "auto".toList then .ok (one "z-index" (some value))
    else do return one "z-index" (← integer value negative)
  | "order" => do return one "order" (← order value negative)
  | _ => .ok (valued? name value negative)

/-- declarations of a utility by the longest known name that starts it -/
def byName (utility : List Char) (negative : Bool) : Run (Option (List Declaration)) :=
  match splitName? utility with
  | none => .ok none
  | some (name, value) =>
    if negative && !negatable.contains name then .ok none
    else do
      match ← sides name value negative with
      | some found => return found
      | none =>
        if name = "shadow" then return one "box-shadow" (shadow? value)
        else
          match value with
          | none => return none
          | some v => valued name v negative

/-- declarations of a utility -/
def resolve (utility : List Char) (negative : Bool) : Run (Option (List Declaration)) :=
  if negative then byName utility negative
  else do
    match ← keyword utility with
    | some found => return some found
    | none => byName utility negative

/-! ## Rules -/

/-- parts of a class, cut at colons outside of square brackets; the rest of the class stands at an offset, behind open
brackets and the start of a part -/
def partsFrom (raw : List Char) (depth start offset : Nat) : List Char → Run (List (List Char))
  | [] => do return [← cutFrom raw start]
  | c :: cs =>
    if c = '[' then do
      let deeper ← word (depth + 1)
      partsFrom raw deeper start (offset + c.utf8Size) cs
    else if c = ']' then partsFrom raw (depth - 1) start (offset + c.utf8Size) cs
    else if c = ':' ∧ depth = 0 then do
      let part ← cut raw start offset
      let next ← word (offset + 1)
      return part :: (← partsFrom raw depth next (offset + c.utf8Size) cs)
    else partsFrom raw depth start (offset + c.utf8Size) cs

/-- a rule with the rank and the text of its condition -/
structure Entry where
  rank : Nat
  condition : Option (List Char)
  selector : List Char
  declarations : List Declaration
deriving DecidableEq, Repr

def Entry.text (indent : List Char) (e : Entry) : List Char := Rule.text indent ⟨.always, e.selector, e.declarations⟩

/-- rank of a condition -/
def rank (m : Media) : Run Nat := do
  let place ← match m.breakpoint with
    | some i => word (i + 1)
    | none => pure 0
  let doubled ← word (place * 2)
  word (doubled + if m.dark then 1 else 0)

/-- text of a condition, with its breakpoint read by place -/
def condition (m : Media) : Run (Option (List Char)) := do
  let width ← match m.breakpoint with
    | some i => do
      let row ← item breakpoints i
      pure [("(min-width: " ++ toString row.2 ++ "px)").toList]
    | none => pure []
  let dark := if m.dark then ["(prefers-color-scheme: dark)".toList] else []
  match width ++ dark with
  | [] => return none
  | parts => return some (List.intercalate " and ".toList parts)

/-- rule of a class, if it is understood; room for its selector is counted in a word -/
def compileClass (raw : List Char) : Run (Option Entry) := do
  let parts ← partsFrom raw 0 0 0 raw
  match Variants.ofNames parts.dropLast with
  | none => return none
  | some variants =>
    let (body, important) := dropMark '!' (parts.getLast?.getD [])
    let (utility, negative) := dropMark '-' body
    if utility.isEmpty then return none
    else
      match ← resolve utility negative with
      | none => return none
      | some found =>
        let text ← condition variants.media
        let place ← rank variants.media
        let _ ← word (byteLen raw + 4)
        return some ⟨place, text, '.' :: (escapeClass raw ++ variants.pseudo),
          if important then found.map Declaration.important else found⟩

/-! ## Text -/

/-- text of the entries under a condition from a place on, and the place after them -/
def blockFrom (entries : List Entry) (text : List Char) (i : Nat) : Run (List Char × { j : Nat // i ≤ j }) :=
  if _h : i < entries.length then do
    let e ← item entries i
    if e.condition = some text then
      let _ ← word (i + 1)
      let (rest, ⟨j, hj⟩) ← blockFrom entries text (i + 1)
      return (e.text "  ".toList ++ rest, ⟨j, Nat.le_of_succ_le hj⟩)
    else return ([], ⟨i, Nat.le_refl i⟩)
  else return ([], ⟨i, Nat.le_refl i⟩)
termination_by entries.length - i

/-- text of the entries from a place on -/
def sheetFrom (entries : List Entry) (i : Nat) : Run (List Char) :=
  if _h : i < entries.length then do
    let e ← item entries i
    let _ ← word (i + 1)
    match e.condition with
    | none => return e.text [] ++ (← sheetFrom entries (i + 1))
    | some text =>
      let (rest, ⟨j, _hj⟩) ← blockFrom entries text (i + 1)
      return "@media ".toList ++ text ++ " \x7b\n".toList ++ (e.text "  ".toList ++ rest) ++ "\x7d\n".toList ++
        (← sheetFrom entries j)
  else return []
termination_by entries.length - i

/-- style sheet of a list of classes -/
def compile (classes : List (List Char)) : Run (List Char) := do
  let entries := (← classes.mapM compileClass).filterMap id
  sheetFrom (entries.mergeSort fun a b => a.rank ≤ b.rank) 0

end TsxWorkbench.Utility.Machine
