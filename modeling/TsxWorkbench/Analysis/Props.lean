/-
Props of a module. Every exported component adds an entry for each key that it takes out of its props; entries of one
key are merged in order. A key is required when nothing supplies a default and some component does not let it be left
out.
-/
import TsxWorkbench.Analysis.Component
import TsxWorkbench.Analysis.Label
import TsxWorkbench.Text.Letters

namespace TsxWorkbench.Analysis

open Syntax Text

/-! ## Entries -/

/-- a key that a component takes out of its props -/
structure PropEntry where
  key : String
  default : Option Json
  annotated : Option PropType
  isOptional : Bool
deriving Inhabited

/-- a union with undefined among its own branches, in any number of parentheses -/
def admitsUndefined : Node → Bool
  | .unionType _ branches => branches.any fun b => match b with
    | .keywordType _ name => name == "undefined"
    | _ => false
  | .parenthesizedType _ inner => admitsUndefined inner
  | _ => false

/-- key of a pattern's entry and the default it gives; entries that gather the rest have none -/
def keyAndDefault? : Node → Option (String × Option Json)
  | .shorthandPattern _ name initial => some (name, initial.bind staticValue?)
  | .keyValue _ key (.withDefault _ _ initial) => (staticKey? key).map fun k => (k, staticValue? initial)
  | .keyValue _ key _ => (staticKey? key).map fun k => (k, none)
  | _ => none

def entryOf (scope : TypeScope) (members : List TypeMember) (key : String) (default : Option Json) :
    PropEntry :=
  match (members.reverse.find? (·.key == key)) with
  | some m => ⟨key, default, m.type.bind scope.resolve?, m.isOptional || m.type.any admitsUndefined⟩
  | none => ⟨key, default, none, false⟩

/-- entries of an object pattern under a type -/
def patternEntries (scope : TypeScope) (entries : List Node) (type : Option Node) : List PropEntry :=
  let members := (type.map scope.members).getD []
  (entries.filterMap keyAndDefault?).map fun (key, default) => entryOf scope members key default

/-- pattern that takes keys out of a name, with the type written on it -/
def destructured? (name : String) : Node → Option (List Node × Option Node)
  | .declarator _ (.objectPattern _ entries type) (some initial) =>
    match unwrap initial with
    | .ident _ other => if other = name then some (entries, type) else none
    | _ => none
  | _ => none

/-- patterns that take keys out of a name anywhere in a body -/
def destructuredIn (name : String) (body : Option Node) : List (List Node × Option Node) :=
  ((body.map Node.preorder).getD []).filterMap (destructured? name)

/-- a pattern without the default given to the whole of it -/
def withoutDefault : Node → Node
  | .withDefault _ target _ => target
  | n => n

/-- entries of a component -/
def Component.entries (scope : TypeScope) (c : Component) : List PropEntry :=
  match c.param.map withoutDefault with
  | some (.objectPattern _ entries type) => patternEntries scope entries (type <|> c.declaredProps)
  | some (.binding _ name type) =>
    (destructuredIn name c.body).flatMap fun (entries, own) =>
      patternEntries scope entries (own <|> type <|> c.declaredProps)
  | _ => []

/-! ## Merging -/

/-- what is known of a key; without a type it counts as a text -/
structure PropDefinition where
  key : String
  type : Option PropType
  default : Option Json
  isRequired : Bool
deriving Inhabited

namespace PropDefinition

def shownType (d : PropDefinition) : PropType := d.type.getD .string

end PropDefinition

/-- kind of a default -/
def typeOfDefault? : Json → Option PropType
  | .string _ => some .string
  | .int _ => some .number
  | .float _ => some .number
  | .bool _ => some .boolean
  | .array _ => some .array
  | .object _ => some .object
  | .null => none

/-- type of an entry: an enumeration that is written down, else the kind of the default, else what is written down -/
def PropEntry.type? (e : PropEntry) : Option PropType :=
  if e.annotated.any PropType.isEnumeration then e.annotated
  else e.default.bind typeOfDefault? <|> e.annotated

def PropEntry.definition (e : PropEntry) : PropDefinition :=
  ⟨e.key, e.type?, e.default, e.default.isNone && !e.isOptional⟩

/-- the better of two types: the first enumeration, else the first known one -/
def mergeTypes (a b : Option PropType) : Option PropType :=
  if a.any PropType.isEnumeration then a
  else if b.any PropType.isEnumeration || a.isNone then b
  else a

/-- what is known of a key after one more entry -/
def PropDefinition.merge (d : PropDefinition) (e : PropEntry) : PropDefinition :=
  let incoming := e.definition
  let default := d.default <|> incoming.default
  ⟨d.key, mergeTypes d.type incoming.type, default, default.isNone && (d.isRequired || incoming.isRequired)⟩

/-- definitions after one more entry; a new key comes last -/
def addEntry : List PropDefinition → PropEntry → List PropDefinition
  | [], e => [e.definition]
  | d :: ds, e => if d.key = e.key then d.merge e :: ds else d :: addEntry ds e

/-! ## Of a module -/

structure Export where
  name : String
deriving DecidableEq, Repr, Inhabited

/-- an export listed under the name of default exports -/
def Export.isDefault (e : Export) : Bool := e.name == defaultName

structure Props where
  exports : List Export
  definitions : List PropDefinition
  duplicateKeys : List String
deriving Inhabited

/-- keys to which at least two of several lists contribute, sorted -/
def sharedKeys (lists : List (List String)) : List String :=
  sortedTexts ((lists.flatMap id).filter fun key => 2 ≤ (lists.filter (·.contains key)).length)

/-- exports of a module and the props they take -/
def Props.ofModule (m : Module) : Props :=
  let scope := TypeScope.ofModule m
  let components := exportedComponents m
  let entries := components.map fun c => c.2.entries scope
  ⟨components.map fun c => ⟨c.1⟩, (entries.flatMap id).foldl addEntry [], sharedKeys (entries.map (·.map (·.key)))⟩

/-- the definition of a key -/
def Props.find? (p : Props) (key : String) : Option PropDefinition := p.definitions.find? (·.key == key)

/-- defaults by key -/
def Props.defaults (p : Props) : List (String × Json) :=
  p.definitions.filterMap fun d => d.default.map fun v => (d.key, v)

end TsxWorkbench.Analysis
