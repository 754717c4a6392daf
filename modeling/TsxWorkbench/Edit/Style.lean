/-
Style updates. A field goes into the element's class attribute if its text is known and the value has a class, and into
the inline style otherwise; in either place what it replaces is taken out of the other, so that one place decides.
-/
import TsxWorkbench.Analysis.StaticValue
import TsxWorkbench.Edit.ClassToken
import TsxWorkbench.Edit.InlineStyle

namespace TsxWorkbench.Edit

open Text Syntax Analysis

/-! ## Class attribute -/

/-- where the classes of an element are: in no attribute yet, in a text that stands in a range, or put together at run
time. A text in an attribute without braces has the quote around it -/
inductive ClassTarget where
  | missing (place : Nat)
  | static (value : List Char) (span : Span) (quote : Option Char)
  | dynamic
deriving DecidableEq, Repr

def ClassTarget.of (source : List Char) (e : Element) : ClassTarget :=
  match e.lastAttribute? isClassAttribute with
  | none => .missing e.attributePlace
  | some found =>
    match valueOf? found with
    | some (.strLit span value) => .static value.toList span (span.slice source).head?
    | some (.container _ (some inner)) =>
      match staticText? inner with
      | some value => .static value.toList (unwrap inner).span none
      | none => .dynamic
    | _ => .dynamic

/-- a class text where it stands: in the quotes of the attribute if it does not hold them, else as a string in braces;
inside braces always as a string -/
def classLiteral (value : List Char) (quote : Option Char) : List Char :=
  match quote with
  | some q =>
    if (q = '\x22' ∨ q = '\x27') ∧ !value.contains q then q :: value ++ [q]
    else '\x7b' :: Json.quote value ++ ['\x7d']
  | none => Json.quote value

/-- how to bring the classes of updated fields into a target; nothing if the text stays as it is -/
def classSplice? (target : ClassTarget) (updates : List (StyleField × Option (List Char))) : Option Splice :=
  match target with
  | .missing place =>
    let classes := updateClasses [] updates
    if classes.isEmpty then none
    else some (.insertAt place (" className=".toList ++ classLiteral classes (some '\x22')))
  | .static value span quote =>
    let classes := updateClasses value updates
    if classes = value then none else some ⟨span, classLiteral classes quote⟩
  | .dynamic => none

/-! ## Update -/

namespace StyleUpdate

/-- changes in the order of the fields -/
def entries (u : StyleUpdate) : List (StyleField × Change) :=
  StyleField.all.filterMap fun f => (u.change? f).map fun c => (f, c)

end StyleUpdate

/-- what an update does to the classes and to the inline style, and what is to be told about it -/
structure StylePlan where
  classes : List (StyleField × Option (List Char))
  patch : StylePatch
  notices : List String
deriving DecidableEq, Repr, Inhabited

/-- one field of an update on an element whose classes can be written -/
def classChange (field : StyleField) (change : Change) : StylePlan :=
  let key := field.property
  match change with
  | .clear => ⟨[(field, none)], ⟨[], [key]⟩, []⟩
  | .set value =>
    match formatToken? field value with
    | some token => ⟨[(field, some token)], ⟨[], [key]⟩, []⟩
    | none => ⟨[], ⟨[(key, value.script)], []⟩, [key ++ " has no class form; wrote it as inline style"]⟩

/-- one field of an update on an element whose classes cannot be written -/
def inlineChange (field : StyleField) (change : Change) : StylePlan :=
  match change with
  | .clear => ⟨[], ⟨[], [field.property]⟩, []⟩
  | .set value => ⟨[], ⟨[(field.property, value.script)], []⟩, []⟩

def StylePlan.append (a b : StylePlan) : StylePlan :=
  ⟨a.classes ++ b.classes, ⟨a.patch.sets ++ b.patch.sets, a.patch.removes ++ b.patch.removes⟩, a.notices ++ b.notices⟩

/-- plan of a list of changes for a class target -/
def StylePlan.of (target : ClassTarget) (changes : List (StyleField × Change)) : StylePlan :=
  match target with
  | .dynamic =>
    let note := "className is dynamic; wrote " ++ toString changes.length ++ " field(s) as inline style instead"
    (changes.map fun c => inlineChange c.1 c.2).foldl StylePlan.append ⟨[], ⟨[], []⟩, [note]⟩
  | _ => (changes.map fun c => classChange c.1 c.2).foldl StylePlan.append ⟨[], ⟨[], []⟩, []⟩

/-- splices of a plan for an element, with the notices; an inline style that is not understood matters only if
something has to be written into it -/
def planUpdate (source : List Char) (e : Element) (changes : List (StyleField × Change)) (indentUnit : List Char) :
    EditResult :=
  let target := ClassTarget.of source e
  let plan := StylePlan.of target changes
  let classes := (classSplice? target plan.classes).toList
  let finish (splices : List Splice) (notices : List String) : EditResult :=
    if splices.isEmpty then .refused source .noChanges notices
    else .applied (applySplices source splices) notices
  match planStyle source e plan.patch indentUnit with
  | .ok style => finish (classes ++ style.toList) plan.notices
  | .error reason =>
    if plan.patch.sets.isEmpty then
      finish classes (plan.notices ++ ["style is dynamic; existing inline entries were left in place"])
    else .refused source reason plan.notices

/-- a source with a style update applied to the element around a place -/
def updateStyle (indentUnit source : List Char) (point : Position) (update : StyleUpdate) : EditResult :=
  if update.entries.isEmpty then .refused source .noChanges []
  else match locate source point with
    | .error reason => .refused source reason []
    | .ok e => planUpdate source e update.entries indentUnit

end TsxWorkbench.Edit
