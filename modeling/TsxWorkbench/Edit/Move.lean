/-
Moving an element: its `translate` style entry, two lengths in pixels, is read, moved and written back. A value that is
no such pair is never thrown away. Lengths are written with at most two places, no zeros at the end and no negative
zero.
-/
import TsxWorkbench.Edit.InlineStyle
import TsxWorkbench.Utility.Value

namespace TsxWorkbench.Edit

open Text Syntax Analysis Number Utility

/-- a length in pixels; the unit may be left out of a zero -/
def length? (part : List Char) : Option Binary64 :=
  let unitless := if "xp".toList.isPrefixOf part.reverse then some (part.take (part.length - 2)) else none
  match unitless with
  | some digits => decimal? digits
  | none => (decimal? part).bind fun x => if x.isZero then some x else none

/-- the two lengths of a displacement; a single one is horizontal -/
def displacement? (value : List Char) : Option (Binary64 × Binary64) :=
  match words value with
  | [x] => (length? x).map fun a => (a, .ofNat 0)
  | [x, y] =>
    match length? x, length? y with
    | some a, some b => some (a, b)
    | _, _ => none
  | _ => none

/-- decimal text of a length, rounded from the exact value to two places -/
def formatPixels (x : Binary64) : List Char :=
  let trimmed := trimDecimal 2 x
  if trimmed = "-0".toList ∨ trimmed = [] then ['0'] else trimmed

/-- text of a displacement -/
def displacementText (x y : Binary64) : List Char := formatPixels x ++ "px ".toList ++ formatPixels y ++ "px".toList

/-- where an element has been moved to so far -/
def currentDisplacement (style : StyleAttribute) : Except Refusal (Binary64 × Binary64) :=
  match style with
  | .dynamic => .error (.dynamicAttribute "style")
  | _ =>
    match style.valueOf? "translate" with
    | none => .ok (.ofNat 0, .ofNat 0)
    | some value =>
      match (staticText? value).bind fun s => displacement? s.toList with
      | some current => .ok current
      | none => .error (.dynamicAttribute "style.translate")

/-- how to move an element; nothing if it stays where it is -/
def planMove (source : List Char) (e : Element) (dx dy : Binary64) (indentUnit : List Char) :
    Except Refusal (Option Splice) := do
  let (x, y) ← currentDisplacement (StyleAttribute.of e)
  planStyle source e ⟨[("translate", Json.quote (displacementText (x.add dx) (y.add dy)))], []⟩ indentUnit

/-- a source with the element around a place moved by two distances -/
def moveElement (indentUnit source : List Char) (point : Position) (dx dy : Binary64) : EditResult :=
  if !dx.isFinite || !dy.isFinite then .refused source .noChanges []
  else match locate source point with
    | .error reason => .refused source reason []
    | .ok e =>
      match planMove source e dx dy indentUnit with
      | .error reason => .refused source reason []
      | .ok none => .refused source .noChanges []
      | .ok (some splice) => .applied (applySplices source [splice]) []

/-! ## What a move does -/

variable {source : List Char} {point : Position} {e : Element} {dx dy x y : Binary64}

theorem planMove_of_current (h : currentDisplacement (StyleAttribute.of e) = .ok (x, y)) (source indentUnit : List Char)
    (dx dy : Binary64) : planMove source e dx dy indentUnit =
      planStyle source e ⟨[("translate", Json.quote (displacementText (x.add dx) (y.add dy)))], []⟩ indentUnit := by
  unfold planMove
  rw [h]
  rfl

/-- distances that are not finite move nothing -/
theorem moveElement_of_not_finite (h : dx.isFinite = false ∨ dy.isFinite = false) (indentUnit source : List Char)
    (point : Position) : moveElement indentUnit source point dx dy = .refused source .noChanges [] := by
  unfold moveElement
  rw [if_pos]
  simpa using h

theorem moveElement_of_locate (hlocate : locate source point = .ok e) (hdx : dx.isFinite = true)
    (hdy : dy.isFinite = true) (indentUnit : List Char) : moveElement indentUnit source point dx dy =
      match planMove source e dx dy indentUnit with
      | .error reason => .refused source reason []
      | .ok none => .refused source .noChanges []
      | .ok (some splice) => .applied (applySplices source [splice]) [] := by
  unfold moveElement
  rw [hdx, hdy, hlocate]
  rfl

/-- a move is refused, or the sums of a displacement and the distances are written into the style of the element -/
theorem moveElement_cases (indentUnit source : List Char) (point : Position) (dx dy : Binary64) :
    (∃ reason, moveElement indentUnit source point dx dy = .refused source reason []) ∨
      ∃ e x y splice, locate source point = .ok e ∧ currentDisplacement (StyleAttribute.of e) = .ok (x, y) ∧
        planStyle source e ⟨[("translate", Json.quote (displacementText (x.add dx) (y.add dy)))], []⟩ indentUnit =
          .ok (some splice) ∧
        moveElement indentUnit source point dx dy = .applied (applySplices source [splice]) [] := by
  by_cases hinfinite : dx.isFinite = false ∨ dy.isFinite = false
  · exact .inl ⟨_, moveElement_of_not_finite hinfinite indentUnit source point⟩
  simp only [not_or, Bool.not_eq_false] at hinfinite
  cases hlocate : locate source point with
  | error reason =>
    unfold moveElement
    rw [hinfinite.1, hinfinite.2, hlocate]
    exact .inl ⟨_, rfl⟩
  | ok e =>
    rw [moveElement_of_locate hlocate hinfinite.1 hinfinite.2]
    cases hcurrent : currentDisplacement (StyleAttribute.of e) with
    | error reason =>
      unfold planMove
      rw [hcurrent]
      exact .inl ⟨_, rfl⟩
    | ok current =>
      obtain ⟨x, y⟩ := current
      rw [planMove_of_current hcurrent]
      cases hplan : planStyle source e ⟨[("translate", Json.quote (displacementText (x.add dx) (y.add dy)))], []⟩
          indentUnit with
      | error reason => exact .inl ⟨_, rfl⟩
      | ok planned =>
        cases planned with
        | none => exact .inl ⟨_, rfl⟩
        | some splice => exact .inr ⟨e, x, y, splice, rfl, hcurrent, hplan, rfl⟩

end TsxWorkbench.Edit
