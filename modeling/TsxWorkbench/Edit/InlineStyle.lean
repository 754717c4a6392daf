/-
The inline style of an element: an object literal in its `style` attribute. A patch sets some of its keys and removes
others; entries that it does not name keep their text and their order.
-/
import TsxWorkbench.Edit.Element
import TsxWorkbench.Text.Splice

namespace TsxWorkbench.Edit

open Text Syntax Analysis

/-- the style attribute of an element; any other form than an object literal is not understood -/
inductive StyleAttribute where
  | missing
  | object (whole : Span) (literal : Span) (entries : List Node)
  | dynamic
deriving Inhabited

def StyleAttribute.of (e : Element) : StyleAttribute :=
  match e.lastAttribute? (· == "style") with
  | none => .missing
  | some found =>
    match (valueOf? found).bind containedExpression? with
    | some (.object literal entries) => .object found.span literal entries
    | _ => .dynamic

/-! ## Entries -/

/-- key of an entry, if the source shows it -/
def entryKey? : Node → Option String
  | .keyValue _ key _ => staticKey? key
  | .shorthand _ name => some name
  | _ => none

/-- value expression of an entry with a key, if it is one -/
private def valueFor? (key : String) : Node → Option Node
  | .keyValue _ k value => if staticKey? k = some key then some value else none
  | _ => none

/-- value expression of the last entry with a key -/
def StyleAttribute.valueOf? (key : String) : StyleAttribute → Option Node
  | .object _ _ entries => entries.reverse.findSome? (valueFor? key)
  | _ => none

/-- an entry with a key that none comes after decides, whatever stands before it -/
theorem StyleAttribute.valueOf?_last {key : String} {span : Span} {name value : Node} {after : List Node}
    (hkey : staticKey? name = some key) (hlast : ∀ n ∈ after, entryKey? n ≠ some key) (whole literal : Span)
    (before : List Node) :
    (StyleAttribute.object whole literal (before ++ .keyValue span name value :: after)).valueOf? key = some value := by
  have hother : ∀ n ∈ after.reverse, valueFor? key n = none := by
    intro n hn
    have hne := hlast n (List.mem_reverse.1 hn)
    unfold valueFor?
    split
    · exact if_neg hne
    · rfl
  have hthis : valueFor? key (.keyValue span name value) = some value := if_pos hkey
  unfold StyleAttribute.valueOf?
  simp only [List.reverse_append, List.reverse_cons, List.append_assoc, List.findSome?_append,
    List.findSome?_eq_none_iff.2 hother, List.findSome?_cons, List.nil_append, List.cons_append, hthis, Option.none_or]

/-! ## Patches -/

/-- keys with the expressions to write for them, and keys to remove -/
structure StylePatch where
  sets : List (String × List Char)
  removes : List String
deriving DecidableEq, Repr, Inhabited

def StylePatch.isEmpty (p : StylePatch) : Bool := p.sets.isEmpty && p.removes.isEmpty

/-- text of a new entry -/
def entryText (key : String) (value : List Char) : List Char := key.toList ++ ": ".toList ++ value

/-- an entry with another value; what stands before the old value is kept -/
def replaceValue (source : List Char) (entry : Node) (key : String) (value : List Char) : List Char :=
  match entry with
  | .keyValue span _ old => sliceBytes span.lo old.span.lo source ++ value
  | _ => entryText key value

/-- text of an entry under a patch, or nothing if the patch removes it -/
def patchedText? (source : List Char) (p : StylePatch) (entry : Node) : Option (List Char) :=
  match entryKey? entry with
  | none => some (entry.span.slice source)
  | some key =>
    if p.removes.contains key then none
    else match p.sets.lookup key with
      | some value => some (replaceValue source entry key value)
      | none => some (entry.span.slice source)

/-- entries that a patch adds: the keys it sets that it wrote into no entry -/
def addedEntries (p : StylePatch) (entries : List Node) : List (List Char) :=
  (p.sets.filter fun s => p.removes.contains s.1 || !entries.any fun e => entryKey? e == some s.1).map fun s =>
    entryText s.1 s.2

/-- texts of all entries under a patch -/
def patchedEntries (source : List Char) (p : StylePatch) (entries : List Node) : List (List Char) :=
  entries.filterMap (patchedText? source p) ++ addedEntries p entries

/-- whether a patch removes an entry, gives one another text, or adds one -/
def patchChanges (source : List Char) (p : StylePatch) (entries : List Node) : Bool :=
  entries.any (fun n => patchedText? source p n != some (n.span.slice source)) || !(addedEntries p entries).isEmpty

/-! ## Rendering -/

/-- an object of entries in the layout of an old one: on one line, or each entry on a line with a comma after it -/
def renderObject (source : List Char) (literal : Span) (old : List Node) (entries : List (List Char))
    (indentUnit : List Char) : List Char :=
  if !(literal.slice source).contains '\n' then
    "\x7b ".toList ++ List.intercalate ", ".toList entries ++ " \x7d".toList
  else
    let closeIndent := indentationAt source (literal.hi - 1)
    let ownLine (n : Node) : Bool := (position source n.span.lo).line != (position source literal.lo).line
    let entryIndent := match old with
      | first :: _ => if ownLine first then indentationAt source first.span.lo else closeIndent ++ indentUnit
      | [] => closeIndent ++ indentUnit
    "\x7b\n".toList ++ joinLines (entries.map fun entry => entryIndent ++ entry ++ [',']) ++
      '\n' :: closeIndent ++ ['\x7d']

/-- an attribute with the blanks before it -/
def attributeWithBlanks (source : List Char) (whole : Span) : Span :=
  ⟨byteLen (trimEnd (takeBytes whole.lo source)), whole.hi⟩

/-! ## Plan -/

/-- how to apply a patch to the style of an element; nothing if nothing changes -/
def planStyle (source : List Char) (e : Element) (p : StylePatch) (indentUnit : List Char) :
    Except Refusal (Option Splice) :=
  if p.isEmpty then .ok none
  else match StyleAttribute.of e with
    | .missing =>
      if p.sets.isEmpty then .ok none
      else
        let entries := p.sets.map fun s => entryText s.1 s.2
        .ok (some (.insertAt e.attributePlace
          (" style=\x7b\x7b ".toList ++ List.intercalate ", ".toList entries ++ " \x7d\x7d".toList)))
    | .dynamic => .error (.dynamicAttribute "style")
    | .object whole literal old =>
      let entries := patchedEntries source p old
      if !patchChanges source p old then .ok none
      else if entries.isEmpty then .ok (some ⟨attributeWithBlanks source whole, []⟩)
      else .ok (some ⟨literal, renderObject source literal old entries indentUnit⟩)

end TsxWorkbench.Edit
