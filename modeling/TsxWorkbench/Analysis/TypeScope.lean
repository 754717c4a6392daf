/-
Kinds of properties as types tell them. A scope holds the type aliases and interfaces of a module; `resolve?` finds the
kind of a type in it and `members` the properties of an object type. An alias that leads back to itself has no kind.
-/
import TsxWorkbench.Analysis.StaticValue

namespace TsxWorkbench.Analysis

open Syntax

/-- kind of a property; an enumeration lists its values -/
inductive PropType where
  | string
  | number
  | boolean
  | array
  | object
  | enumeration (values : List Json)
deriving BEq, Repr, Inhabited

namespace PropType

def name : PropType → String
  | .string => "string"
  | .number => "number"
  | .boolean => "boolean"
  | .array => "array"
  | .object => "object"
  | .enumeration _ => "enum"

def isEnumeration : PropType → Bool
  | .enumeration _ => true
  | _ => false

def values? : PropType → Option (List Json)
  | .enumeration vs => some vs
  | _ => none

end PropType

def isNumberValue : Json → Bool
  | .int _ => true
  | .float _ => true
  | _ => false

def isTextValue : Json → Bool
  | .string _ => true
  | _ => false

/-- the kind that all values of an enumeration share -/
def PropType.base : PropType → PropType
  | .enumeration vs => if vs.all isNumberValue then .number else .string
  | p => p

/-! ## Scopes -/

inductive TypeDeclaration where
  | alias (type : Node)
  | interface (bases members : List Node)
deriving Inhabited

/-- declared types, the latest first -/
abbrev TypeScope := List (String × TypeDeclaration)

/-- declaration inside a top-level item, exported or not -/
def declarationOf : Node → Node
  | .exportDeclaration _ inner => inner
  | n => n

namespace TypeScope

/-- the type that an item declares, exported or not -/
def declared? (item : Node) : Option (String × TypeDeclaration) :=
  match declarationOf item with
  | .typeAlias _ name _ type => some (name, .alias type)
  | .interface _ name _ bases members => some (name, .interface bases members)
  | _ => none

/-- aliases and interfaces among the items of a module -/
def ofModule (m : Module) : TypeScope := (m.items.filterMap declared?).reverse

def find? (scope : TypeScope) (name : String) : Option TypeDeclaration := (List.find? (·.1 == name) scope).map (·.2)

end TypeScope

/-! ## Kinds -/

/-- null, undefined or void, in any number of parentheses -/
def isNullish : Node → Bool
  | .keywordType _ name => name == "null" || name == "undefined" || name == "void"
  | .parenthesizedType _ inner => isNullish inner
  | _ => false

def keywordKind? (name : String) : Option PropType :=
  if name = "string" then some .string
  else if name = "number" ∨ name = "bigint" then some .number
  else if name = "boolean" then some .boolean
  else if name = "object" then some .object
  else none

def literalKind? : Node → Option PropType
  | .strLit _ s => some (.enumeration [.string s])
  | .numLit _ x => (Json.ofNumber? x).map fun v => .enumeration [v]
  | .boolLit .. => some .boolean
  | .template .. => some .string
  | _ => none

/-- kinds of the types that need no declaration -/
def builtinKind? (name : String) : Option PropType :=
  if ["Array", "ReadonlyArray"].contains name then some .array
  else if ["Record", "Partial", "Required", "Readonly", "Pick", "Omit"].contains name then some .object
  else if name = "String" then some .string
  else if name = "Number" then some .number
  else if name = "Boolean" then some .boolean
  else none

/-- kind of a union of branches, null and undefined left out: an enumeration if all values are texts or all are
numbers, else the kind of the first branch that has one -/
def unionKind? (branches : List (Option PropType)) : Option PropType :=
  let known := branches.filterMap id
  let values := known.flatMap fun p => (p.values?).getD []
  if branches.isEmpty then none
  else if branches.all (fun b => b.any PropType.isEnumeration) &&
      (values.all isTextValue || values.all isNumberValue) then
    some (.enumeration values.eraseDups)
  else if branches.all fun b => b == some .boolean then some .boolean
  else known.head?.map PropType.base

/-- kind of a type, found in a number of steps; the names that are open are those on the way to the type -/
def resolveWithin (scope : TypeScope) : Nat → List String → Node → Option PropType
  | 0, _, _ => none
  | k + 1, open_, type =>
    match type with
    | .keywordType _ name => keywordKind? name
    | .literalType _ literal => literalKind? literal
    | .listType .. => some .array
    | .objectType .. => some .object
    | .mappedType .. => some .object
    | .intersectionType .. => some .object
    | .parenthesizedType _ inner => resolveWithin scope k open_ inner
    | .modifiedType _ inner => resolveWithin scope k open_ inner
    | .unionType _ branches => unionKind? ((branches.filter (!isNullish ·)).map (resolveWithin scope k open_))
    | .namedType _ name _ =>
      match builtinKind? name with
      | some kind => some kind
      | none =>
        if open_.contains name then none
        else match scope.find? name with
          | some (.alias target) => resolveWithin scope k (name :: open_) target
          | some (.interface ..) => some .object
          | none => none
    | _ => none

/-- kind of a type in a scope -/
def TypeScope.resolve? (scope : TypeScope) (type : Node) : Option PropType :=
  resolveWithin scope (walkDepth + 1) [] type

/-! ## Members -/

/-- a property of an object type -/
structure TypeMember where
  key : String
  isOptional : Bool
  type : Option Node
deriving Inhabited

/-- property under a word or a string; methods and computed keys have none -/
def memberOf? : Node → Option TypeMember
  | .propertySignature _ (.ident _ name) false isOptional type => some ⟨name, isOptional, type⟩
  | .propertySignature _ (.strLit _ s) false isOptional type => some ⟨s, isOptional, type⟩
  | _ => none

/-- types that have the members of their first argument -/
def memberWrappers : List String := ["Partial", "Readonly", "Required", "PropsWithChildren", "React.PropsWithChildren"]

mutual

def membersWithin (scope : TypeScope) : Nat → Nat → List String → Node → List TypeMember
  | 0, _, _, _ => []
  | k + 1, depth, open_, type =>
    if walkDepth < depth then []
    else match type with
      | .objectType _ members => members.filterMap memberOf?
      | .parenthesizedType _ inner => membersWithin scope k (depth + 1) open_ inner
      | .intersectionType _ parts => parts.flatMap (membersWithin scope k (depth + 1) open_)
      | .namedType _ name args =>
        if memberWrappers.contains name then
          match args with
          | inner :: _ =>
            let members := membersWithin scope k (depth + 1) open_ inner
            if name = "Partial" then members.map fun m => { m with isOptional := true } else members
          | [] => []
        else namedMembersWithin scope k depth open_ name
      | _ => []

def namedMembersWithin (scope : TypeScope) : Nat → Nat → List String → String → List TypeMember
  | 0, _, _, _ => []
  | k + 1, depth, open_, name =>
    if open_.contains name then []
    else match scope.find? name with
      | some (.alias type) => membersWithin scope k (depth + 1) (name :: open_) type
      | some (.interface bases members) =>
        bases.flatMap (fun base => match base with
          | .ident _ baseName => namedMembersWithin scope k (depth + 1) (name :: open_) baseName
          | _ => []) ++ members.filterMap memberOf?
      | none => []

end

/-- properties of an object type in a scope, those of its bases first. The bound on steps is never reached: a step goes
deeper or to a name that was not open -/
def TypeScope.members (scope : TypeScope) (type : Node) : List TypeMember :=
  membersWithin scope (2 * (walkDepth + scope.length + 4)) 0 [] type

end TsxWorkbench.Analysis
