/-
The element that an edit works on: the innermost JSX element around a place. Fragments have no tag to edit and are
passed over.
-/
import TsxWorkbench.Analysis.StaticValue
import TsxWorkbench.Edit.Result
import TsxWorkbench.Syntax.Parser

namespace TsxWorkbench.Edit

open Text Syntax

/-- an element with the places of its tags -/
structure Element where
  span : Span
  tag : TagName
  opening : TagSpans
  closing : Option Span
  attributes : List Node
deriving Inhabited

namespace Element

def ofNode? : Node → Option Element
  | .element span tag opening closing attributes _ _ => some ⟨span, tag, opening, closing, attributes⟩
  | _ => none

/-- the attribute that counts among those whose name meets a test: the last one -/
def lastAttribute? (e : Element) (test : String → Bool) : Option Node :=
  (e.attributes.reverse).find? fun a => match a with
    | .attr _ name _ => test name
    | _ => false

/-- place for a new attribute: after the name of the tag and its type arguments -/
def attributePlace (e : Element) : Nat := (e.opening.typeArgs.getD e.opening.name).hi

end Element

/-- value of an attribute -/
def valueOf? : Node → Option Node
  | .attr _ _ value => value
  | _ => none

/-- the innermost of a module's elements around a place -/
def elementAt? (source : List Char) (m : Module) (point : Position) : Option Element :=
  innermost ((m.preorder.filterMap Element.ofNode?).map fun e => (rangeOf source e.span, e)) point

/-- the innermost element around a place of a source -/
def locate (source : List Char) (point : Position) : Except Refusal Element :=
  if (trim source).isEmpty then .error .emptySource
  else match parseModule source with
    | .error failure => .error (.unparseable (failure.message source))
    | .ok m =>
      match elementAt? source m point with
      | none => .error (.noElement point)
      | some e => if e.opening.whole.hi ≤ e.opening.whole.lo then .error .invalidTag else .ok e

end TsxWorkbench.Edit
