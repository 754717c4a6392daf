/-
What an edit answers: the edited source, or the source as it was with the reason why the edit was refused.
-/
import TsxWorkbench.Text.Position

namespace TsxWorkbench.Edit

open Text

/-- why an edit is refused -/
inductive Refusal where
  | emptySource
  | unparseable (message : String)
  | noElement (point : Position)
  | invalidTag
  | voidTag (tag : String)
  | svgPrimitive (tag : String)
  | selfClosing (tag : String)
  | missingClosingTag (tag : String)
  | inlineContent (tag : String)
  | emptyInsertion
  | dynamicAttribute (name : String)
  | noChanges
deriving DecidableEq, Repr

def Refusal.message : Refusal → String
  | .emptySource => "source is empty"
  | .unparseable message => "source could not be parsed: " ++ message
  | .noElement p => "no JSX element encloses " ++ toString p.line ++ ":" ++ toString p.column
  | .invalidTag => "element has no usable tag location"
  | .voidTag tag => "<" ++ tag ++ "> is a void element and cannot have children"
  | .svgPrimitive tag => "<" ++ tag ++ "> is an SVG primitive and cannot take inserted children"
  | .selfClosing tag => "<" ++ tag ++ "> is self-closing"
  | .missingClosingTag tag => "<" ++ tag ++ "> has no closing tag"
  | .inlineContent tag => "<" ++ tag ++ "> already has inline content between its tags"
  | .emptyInsertion => "nothing to insert"
  | .dynamicAttribute name => "\x60" ++ name ++ "\x60 is not a static value the editor can rewrite"
  | .noChanges => "no changes to apply"

/-- a source after an edit; a refused edit leaves it as it was. Notices tell how the edit was carried out -/
structure EditResult where
  source : List Char
  insertedAt : Option Position
  refusal : Option Refusal
  notices : List String
deriving DecidableEq, Repr

namespace EditResult

def changed (r : EditResult) : Bool := r.refusal.isNone

def applied (source : List Char) (notices : List String) : EditResult := ⟨source, none, none, notices⟩

def refused (source : List Char) (reason : Refusal) (notices : List String) : EditResult :=
  ⟨source, none, some reason, notices⟩

end EditResult

end TsxWorkbench.Edit
