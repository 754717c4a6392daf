/-
Splices: replacements of byte ranges of a text. They are carried out from the back of the text to its front, so that
the offsets of those still to come stay valid.
-/
import TsxWorkbench.Text.Position

namespace TsxWorkbench.Text

/-- replacement of a byte range by a text -/
structure Splice where
  span : Span
  text : List Char
deriving DecidableEq, Repr

namespace Splice

/-- insertion of a text at a byte offset -/
def insertAt (at_ : Nat) (text : List Char) : Splice := ⟨⟨at_, at_⟩, text⟩

/-- one replacement -/
def apply (s : Splice) (cs : List Char) : List Char :=
  takeBytes s.span.lo cs ++ s.text ++ dropBytes s.span.hi cs

/-- order of work: later starts first, and of one start the later end -/
def later (a b : Splice) : Bool :=
  b.span.lo < a.span.lo || (a.span.lo == b.span.lo && b.span.hi ≤ a.span.hi)

end Splice

/-- all replacements of a list, from the back of the text to its front -/
def applySplices (cs : List Char) (splices : List Splice) : List Char :=
  (splices.mergeSort Splice.later).foldl (fun text s => s.apply text) cs

end TsxWorkbench.Text
