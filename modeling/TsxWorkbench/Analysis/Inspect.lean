/-
Index from places in a source to the JSX elements around them. An element comes before those inside it; elements inside
more than `maxJsxDepth` others are left out.
-/
import TsxWorkbench.Analysis.StaticValue

namespace TsxWorkbench.Analysis

open Syntax Text

/-- number of elements around the deepest ones that are listed -/
def maxJsxDepth : Nat := 512

/-- number that the form of the index carries -/
def indexVersion : Nat := 1

/-- an element or, without a name, a fragment: its range, and the ranges of the texts right inside it -/
structure InspectElement where
  range : TextRange
  texts : List TextRange
  name : Option String
deriving DecidableEq, Repr, Inhabited

abbrev InspectIndex := List InspectElement

/-! ## JSX nodes -/

def isJsx : Node → Bool
  | .element .. => true
  | .fragment .. => true
  | _ => false

/-- children between the tags of an element or a fragment -/
def jsxChildren : Node → List Node
  | .element _ _ _ _ _ _ children => children
  | .fragment _ children => children
  | _ => []

def jsxName? : Node → Option String
  | .element _ tag .. => some tag.text
  | _ => none

/-- elements and fragments at and below a node that have at most so many of them around them -/
def jsxWithin (depth : Nat) (n : Node) : List Node :=
  if isJsx n then
    match depth with
    | 0 => [n]
    | k + 1 => n :: n.children.attach.flatMap fun c => jsxWithin k c.1
  else n.children.attach.flatMap fun c => jsxWithin depth c.1
termination_by sizeOf n
decreasing_by all_goals exact Node.sizeOf_lt_of_mem_children c.2

/-! ## Texts -/

/-- range of a text without the blanks around it, if there is anything else in it -/
private def trimmedRange? (source : List Char) (span : Span) : Option TextRange :=
  let bytes := span.clamp (byteLen source)
  let raw := bytes.slice source
  if (trimStart raw).isEmpty then none
  else
    let lead := byteLen raw - byteLen (trimStart raw)
    let trail := byteLen raw - byteLen (trimEnd raw)
    some (rangeOf source ⟨bytes.lo + lead, bytes.hi - trail⟩)

/-- a string or a template without parts -/
private def isFixedText (n : Node) : Bool :=
  match unwrap n with
  | .strLit .. => true
  | .template _ _ parts => parts.isEmpty
  | _ => false

/-- range that a child shows text in -/
def childTextRange? (source : List Char) : Node → Option TextRange
  | .text span => trimmedRange? source span
  | .container span (some inner) =>
    if isFixedText inner then some (rangeOf source (span.clamp (byteLen source))) else none
  | _ => none

/-! ## Index -/

/-- entry of an element; at most `limit` texts are listed -/
def InspectElement.ofNode (source : List Char) (limit : Nat) (n : Node) : InspectElement :=
  ⟨rangeOf source (n.span.clamp (byteLen source)), ((jsxChildren n).filterMap (childTextRange? source)).take limit,
    jsxName? n⟩

/-- index of a module that was read from a source -/
def InspectIndex.ofModule (source : List Char) (limit : Nat) (m : Module) : InspectIndex :=
  (m.items.flatMap (jsxWithin maxJsxDepth)).map (InspectElement.ofNode source limit)

/-- the innermost element around a place -/
def InspectIndex.find? (index : InspectIndex) (place : Position) : Option InspectElement :=
  innermost (index.map fun e => (e.range, e)) place

end TsxWorkbench.Analysis
