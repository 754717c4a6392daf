/-
What a style update says: for each of seven fields nothing, that it is cleared, or a value that is a number or a text.
An update is read from a JSON object, in which the text colour may also be called `color`, or from an array of the
fields in order.
-/
import TsxWorkbench.Json.Reader

namespace TsxWorkbench.Edit

open Number

/-- the styles an update can set -/
inductive StyleField where
  | backgroundColor
  | textColor
  | fontSize
  | fontWeight
  | borderColor
  | borderWidth
  | borderRadius
deriving DecidableEq, Repr

namespace StyleField

/-- the fields in the order in which they are written -/
def all : List StyleField :=
  [.backgroundColor, .textColor, .fontSize, .fontWeight, .borderColor, .borderWidth, .borderRadius]

theorem mem_all (f : StyleField) : f ∈ all := by
  cases f <;> decide

/-- key of a field in an inline style object -/
def property : StyleField → String
  | .backgroundColor => "backgroundColor"
  | .textColor => "color"
  | .fontSize => "fontSize"
  | .fontWeight => "fontWeight"
  | .borderColor => "borderColor"
  | .borderWidth => "borderWidth"
  | .borderRadius => "borderRadius"

/-- name of a field in an update -/
def name : StyleField → String
  | .textColor => "textColor"
  | f => f.property

def ofName? (key : String) : Option StyleField :=
  if key = "color" then some .textColor else all.find? fun f => f.name == key

end StyleField

inductive StyleValue where
  | number (x : Binary64)
  | text (s : List Char)
deriving DecidableEq, Repr

namespace StyleValue

def text? : StyleValue → Option (List Char)
  | .text s => some s
  | .number _ => none

/-- expression of a value in an inline style object -/
def script : StyleValue → List Char
  | .number x => x.scriptText
  | .text s => Json.quote s

def ofJson : Json → Except Json.Fault StyleValue
  | .int n => .ok (.number (.ofInt n))
  | .float x => .ok (.number x)
  | .string s => .ok (.text s.toList)
  | _ => .error (.noVariant "StyleValue")

end StyleValue

/-- what an update says of a field -/
inductive Change where
  | clear
  | set (value : StyleValue)
deriving DecidableEq, Repr

def Change.ofJson : Json → Except Json.Fault Change
  | .null => .ok .clear
  | v => (StyleValue.ofJson v).map .set

/-- changes by field, at most one for each -/
abbrev StyleUpdate := List (StyleField × Change)

namespace StyleUpdate

def change? (u : StyleUpdate) (f : StyleField) : Option Change := u.lookup f

private def addFields (u : StyleUpdate) : List (String × Json) → Except Json.Fault StyleUpdate
  | [] => .ok u
  | (key, v) :: rest =>
    match StyleField.ofName? key with
    | none => addFields u rest
    | some f =>
      if (u.lookup f).isSome then .error (.duplicateField f.name)
      else match Change.ofJson v with
        | .error e => .error e
        | .ok c => addFields (u ++ [(f, c)]) rest

private def addItems (u : StyleUpdate) (total : Nat) : List StyleField → List Json → Except Json.Fault StyleUpdate
  | _, [] => .ok u
  | [], _ :: _ => .error (.wrongLength total "fewer elements in array")
  | f :: fields, v :: rest =>
    match Change.ofJson v with
    | .error e => .error e
    | .ok c => addItems (u ++ [(f, c)]) total fields rest

/-- an update from its JSON value; the keys of an object are read in their order -/
def ofJson : Json → Except Json.Fault StyleUpdate
  | .object fields => addFields [] (fields.mergeSort fun a b => a.1 ≤ b.1)
  | .array items => addItems [] items.length StyleField.all items
  | v => .error (.wrongType (Json.describe v) "struct StyleUpdate")

end StyleUpdate

end TsxWorkbench.Edit
