/-
Insertion of a child at the end of an element. The child gets lines of its own, one level further in than the line of
the element's opening tag; text between the tags is never touched.
-/
import TsxWorkbench.Edit.Element
import TsxWorkbench.Text.Splice

namespace TsxWorkbench.Edit

open Text Syntax

/-- tags that have no children -/
def voidTags : List String :=
  ["area", "base", "br", "col", "embed", "hr", "img", "input", "link", "meta", "param", "source", "track", "wbr"]

/-- shapes that show nothing of their children -/
def svgPrimitives : List String :=
  ["path", "circle", "ellipse", "line", "polygon", "polyline", "rect", "stop", "use", "image"]

/-! ## Indentation -/

def isIndent (c : Char) : Bool := c = ' ' || c = '\t'

/-- spaces and tabs at the start of a line -/
def indentOf (line : List Char) : Nat := (line.takeWhile isIndent).length

/-- a line of only blanks -/
def isBlankLine (line : List Char) : Bool := (trim line).isEmpty

/-- spaces and tabs that all lines after the first have in common, blank ones left out -/
def commonIndent (lines : List (List Char)) : Nat :=
  (((lines.drop 1).filter (!isBlankLine ·)).map indentOf).min?.getD 0

/-- a fragment's lines under a new indentation; blank lines become empty -/
def reindent (fragment indent : List Char) : List Char :=
  let lines := textLines (trim fragment)
  let common := commonIndent lines
  let place (line : List Char) (cut : Nat) : List Char := if isBlankLine line then [] else indent ++ line.drop cut
  match lines with
  | [] => []
  | first :: rest => joinLines (place first 0 :: rest.map fun line => place line (min common (indentOf line)))

/-! ## Plan -/

/-- a child to insert: what to splice in, and where the child then starts -/
structure Insertion where
  splice : Splice
  place : Position
deriving DecidableEq, Repr

/-- why an element takes no children, if it does not; otherwise its closing tag -/
def closingTag (e : Element) : Except Refusal Span :=
  let tag := e.tag.text
  let plainIn (names : List String) : Bool := match e.tag with
    | .plain name => names.contains name
    | _ => false
  if plainIn voidTags then .error (.voidTag tag)
  else if plainIn svgPrimitives then .error (.svgPrimitive tag)
  else match e.closing with
    | none => .error (.selfClosing tag)
    | some closing => .ok closing

/-- text from the last line end before a byte up to that byte -/
def lineBefore (source : List Char) (offset : Nat) : List Char :=
  ((takeBytes offset source).reverse.takeWhile (· ≠ '\n')).reverse

/-- how to insert a child at the end of an element -/
def planInsertion (source : List Char) (e : Element) (child indentUnit : List Char) : Except Refusal Insertion := do
  let closing ← closingTag e
  if (trim child).isEmpty then throw .emptyInsertion
  let open_ := e.opening.whole
  if closing.lo < open_.hi then throw .invalidTag
  let indent := indentationAt source open_.lo
  let childIndent := indent ++ indentUnit
  let column := childIndent.length + 1
  let fragment := reindent child childIndent
  let between := sliceBytes open_.hi closing.lo source
  let closingLine := (position source closing.lo).line
  let onOwnLines := '\n' :: fragment ++ '\n' :: indent
  if !between.contains '\n' then
    if !isBlankLine between then throw (.inlineContent e.tag.text)
    return ⟨⟨⟨open_.hi, closing.lo⟩, onOwnLines⟩, ⟨(position source open_.hi).line + 1, column⟩⟩
  let before := lineBefore source closing.lo
  if isBlankLine before then
    return ⟨.insertAt (closing.lo - byteLen before) (fragment ++ ['\n']), ⟨closingLine, column⟩⟩
  return ⟨.insertAt closing.lo onOwnLines, ⟨closingLine + 1, column⟩⟩

/-- a source with a child inserted at the end of the element around a place -/
def insertChild (indentUnit source : List Char) (point : Position) (child : List Char) : EditResult :=
  match locate source point with
  | .error reason => .refused source reason []
  | .ok e =>
    match planInsertion source e child indentUnit with
    | .error reason => .refused source reason []
    | .ok insertion => ⟨applySplices source [insertion.splice], some insertion.place, none, []⟩

end TsxWorkbench.Edit
