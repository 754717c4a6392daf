/-
The tree of a TSX module. One type holds expressions, patterns, statements, types and JSX alike, because the analyses
walk them all; the forms that some analysis looks into have a constructor of their own, and everything else is `other`
with its parts. Every node has the range of bytes it was read from. `children` lists the parts of a node in reading
order of an analysis (the test of a loop before its body, the body of a class before its base class), and `preorder`
lists a node and all below it, parents first. A walk may stop at some nodes (`preorderUntil`).
-/
import TsxWorkbench.Number.Reader
import TsxWorkbench.Text.Position

namespace TsxWorkbench.Syntax

open Text Number

/-- name of a JSX tag: an identifier, a member access written with dots, or a name in a namespace -/
inductive TagName where
  | plain (name : String)
  | dotted (path : String)
  | namespaced (space name : String)
deriving DecidableEq, Repr, Inhabited

def TagName.text : TagName → String
  | .plain name => name
  | .dotted path => path
  | .namespaced space name => space ++ ":" ++ name

/-- what stands around an expression without changing its value -/
inductive Wrapper where
  | parentheses
  | typeAssertion
  | satisfies
  | nonNull
  | constAssertion
deriving DecidableEq, Repr, Inhabited

/-- where a tag stands: the whole tag, its name, and its type arguments if there are any -/
structure TagSpans where
  whole : Span
  name : Span
  typeArgs : Option Span
deriving DecidableEq, Repr, Inhabited

inductive Node where
  -- expressions
  | ident (span : Span) (name : String)
  | strLit (span : Span) (value : String)
  | numLit (span : Span) (value : Binary64)
  | boolLit (span : Span) (value : Bool)
  | nullLit (span : Span)
  | template (span : Span) (texts : List String) (parts : List Node)
  | wrapped (span : Span) (kind : Wrapper) (inner : Node) (types : List Node)
  | array (span : Span) (elements : List Node)
  | hole (span : Span)
  | spread (span : Span) (inner : Node)
  | object (span : Span) (entries : List Node)
  | keyValue (span : Span) (key value : Node)
  | shorthand (span : Span) (name : String)
  | computed (span : Span) (inner : Node)
  | unary (span : Span) (op : String) (operand : Node)
  | binary (span : Span) (op : String) (left right : Node)
  | assign (span : Span) (target value : Node)
  | call (span : Span) (callee : Node) (args types : List Node)
  | importCall (span : Span) (args : List Node)
  | construct (span : Span) (callee : Node) (args types : List Node)
  | member (span : Span) (base property : Node)
  | function (span : Span) (params : List Node) (body : Option Node) (types : List Node)
  | arrow (span : Span) (params : List Node) (body : Node) (types : List Node)
  -- JSX
  | element (span : Span) (tag : TagName) (opening : TagSpans) (closing : Option Span)
      (attributes types children : List Node)
  | fragment (span : Span) (children : List Node)
  | attr (span : Span) (name : String) (value : Option Node)
  | text (span : Span)
  | container (span : Span) (inner : Option Node)
  -- patterns
  | binding (span : Span) (name : String) (type : Option Node)
  | objectPattern (span : Span) (entries : List Node) (type : Option Node)
  | shorthandPattern (span : Span) (name : String) (initial : Option Node)
  | withDefault (span : Span) (target initial : Node)
  -- statements
  | variableList (span : Span) (declarators : List Node)
  | declarator (span : Span) (target : Node) (initial : Option Node)
  | functionDeclaration (span : Span) (name : String) (inner : Node)
  | typeAlias (span : Span) (name : String) (params : List Node) (type : Node)
  | interface (span : Span) (name : String) (types bases members : List Node)
  -- module items
  | importFrom (span : Span) (source : String) (options : Option Node)
  | exportDeclaration (span : Span) (declaration : Node)
  | exportDefaultDeclaration (span : Span) (declaration : Node)
  | exportDefaultExpression (span : Span) (expression : Node)
  | exportNames (span : Span) (names : List Node) (source : Option String) (options : Option Node) (typeOnly : Bool)
  | exportName (span : Span) (localName : Option String) (exported : String) (typeOnly : Bool)
  | exportAll (span : Span) (source : String) (options : Option Node)
  -- types
  | keywordType (span : Span) (name : String)
  | literalType (span : Span) (literal : Node)
  | listType (span : Span) (parts : List Node)
  | objectType (span : Span) (members : List Node)
  | mappedType (span : Span) (parts : List Node)
  | parenthesizedType (span : Span) (inner : Node)
  | modifiedType (span : Span) (inner : Node)
  | unionType (span : Span) (branches : List Node)
  | intersectionType (span : Span) (parts : List Node)
  | namedType (span : Span) (name : String) (args : List Node)
  | propertySignature (span : Span) (key : Node) (isComputed isOptional : Bool) (type : Option Node)
  -- anything else
  | other (span : Span) (parts : List Node)
deriving Inhabited

namespace Node

/-- range of bytes a node was read from -/
def span : Node → Span
  | ident s .. | strLit s .. | numLit s .. | boolLit s .. | nullLit s | template s .. | wrapped s .. | array s ..
  | hole s | spread s .. | object s .. | keyValue s .. | shorthand s .. | computed s .. | unary s .. | binary s ..
  | assign s .. | call s .. | importCall s .. | construct s .. | member s .. | function s .. | arrow s ..
  | element s .. | fragment s .. | attr s .. | text s | container s .. | binding s .. | objectPattern s ..
  | shorthandPattern s .. | withDefault s .. | variableList s .. | declarator s .. | functionDeclaration s ..
  | typeAlias s .. | interface s .. | importFrom s .. | exportDeclaration s .. | exportDefaultDeclaration s ..
  | exportDefaultExpression s .. | exportNames s .. | exportName s .. | exportAll s .. | keywordType s ..
  | literalType s .. | listType s .. | objectType s .. | mappedType s .. | parenthesizedType s ..
  | modifiedType s .. | unionType s .. | intersectionType s .. | namedType s .. | propertySignature s ..
  | other s .. => s

/-- parts of a node, in the order in which analyses visit them -/
def children : Node → List Node
  | ident .. | strLit .. | numLit .. | boolLit .. | nullLit .. | hole .. | shorthand .. | text .. | exportName ..
  | keywordType .. => []
  | template _ _ parts => parts
  | wrapped _ _ inner types => inner :: types
  | array _ elements => elements
  | spread _ inner => [inner]
  | object _ entries => entries
  | keyValue _ key value => [key, value]
  | computed _ inner => [inner]
  | unary _ _ operand => [operand]
  | binary _ _ left right => [left, right]
  | assign _ target value => [target, value]
  | call _ callee args types => callee :: (args ++ types)
  | importCall _ args => args
  | construct _ callee args types => callee :: (args ++ types)
  | member _ base property => [base, property]
  | function _ params body types => params ++ (body.toList ++ types)
  | arrow _ params body types => params ++ (body :: types)
  | element _ _ _ _ attributes types children => attributes ++ (types ++ children)
  | fragment _ children => children
  | attr _ _ value => value.toList
  | container _ inner => inner.toList
  | binding _ _ type => type.toList
  | objectPattern _ entries type => entries ++ type.toList
  | shorthandPattern _ _ initial => initial.toList
  | withDefault _ target initial => [target, initial]
  | variableList _ declarators => declarators
  | declarator _ target initial => target :: initial.toList
  | functionDeclaration _ _ inner => [inner]
  | typeAlias _ _ params type => params ++ [type]
  | interface _ _ types bases members => types ++ (bases ++ members)
  | importFrom _ _ options => options.toList
  | exportDeclaration _ declaration => [declaration]
  | exportDefaultDeclaration _ declaration => [declaration]
  | exportDefaultExpression _ expression => [expression]
  | exportNames _ names _ options _ => names ++ options.toList
  | exportAll _ _ options => options.toList
  | literalType _ literal => [literal]
  | listType _ parts => parts
  | objectType _ members => members
  | mappedType _ parts => parts
  | parenthesizedType _ inner => [inner]
  | modifiedType _ inner => [inner]
  | unionType _ branches => branches
  | intersectionType _ parts => parts
  | namedType _ _ args => args
  | propertySignature _ key _ _ type => key :: type.toList
  | other _ parts => parts

theorem sizeOf_lt_of_mem_children {n c : Node} (h : c ∈ n.children) : sizeOf c < sizeOf n := by
  have list {l : List Node} (m : c ∈ l) : sizeOf c < sizeOf l := List.sizeOf_lt_of_mem m
  have option {o : Option Node} (m : c ∈ o.toList) : sizeOf c < sizeOf o := by
    cases o with
    | none => simp at m
    | some a => simp only [Option.toList_some, List.mem_singleton] at m; subst m; simp
  cases n <;> dsimp only [children] at h <;>
    try simp only [List.mem_cons, List.mem_append, List.not_mem_nil, or_false] at h
  all_goals try
    simp only [Node.element.sizeOf_spec, Node.template.sizeOf_spec, Node.wrapped.sizeOf_spec, Node.array.sizeOf_spec,
      Node.spread.sizeOf_spec, Node.object.sizeOf_spec, Node.keyValue.sizeOf_spec, Node.computed.sizeOf_spec,
      Node.unary.sizeOf_spec, Node.binary.sizeOf_spec, Node.assign.sizeOf_spec, Node.call.sizeOf_spec,
      Node.importCall.sizeOf_spec, Node.construct.sizeOf_spec, Node.member.sizeOf_spec, Node.function.sizeOf_spec,
      Node.arrow.sizeOf_spec, Node.fragment.sizeOf_spec, Node.attr.sizeOf_spec, Node.container.sizeOf_spec,
      Node.binding.sizeOf_spec, Node.objectPattern.sizeOf_spec, Node.shorthandPattern.sizeOf_spec,
      Node.withDefault.sizeOf_spec, Node.variableList.sizeOf_spec, Node.declarator.sizeOf_spec,
      Node.functionDeclaration.sizeOf_spec, Node.typeAlias.sizeOf_spec, Node.interface.sizeOf_spec,
      Node.importFrom.sizeOf_spec, Node.exportAll.sizeOf_spec,
      Node.exportDeclaration.sizeOf_spec, Node.exportDefaultDeclaration.sizeOf_spec,
      Node.exportDefaultExpression.sizeOf_spec, Node.exportNames.sizeOf_spec, Node.literalType.sizeOf_spec,
      Node.listType.sizeOf_spec, Node.objectType.sizeOf_spec, Node.mappedType.sizeOf_spec,
      Node.parenthesizedType.sizeOf_spec, Node.modifiedType.sizeOf_spec, Node.unionType.sizeOf_spec,
      Node.intersectionType.sizeOf_spec, Node.namedType.sizeOf_spec, Node.propertySignature.sizeOf_spec,
      Node.other.sizeOf_spec]
  all_goals first
    | (have m := list h; omega)
    | (have m := option h; omega)
    | (rw [h]; omega)
    | (rcases h with h | h <;> first | (rw [h]; omega) | (have m := list h; omega) | (have m := option h; omega))
    | (rcases h with h | h | h <;> first | (rw [h]; omega) | (have m := list h; omega) | (have m := option h; omega))

/-- a node and all below it, parents before their parts -/
def preorder (n : Node) : List Node :=
  n :: n.children.attach.flatMap fun c => c.1.preorder
termination_by sizeOf n
decreasing_by exact sizeOf_lt_of_mem_children c.2

theorem preorder_eq (n : Node) : n.preorder = n :: n.children.flatMap preorder := by
  rw [preorder]
  congr 1
  rw [← List.flatMap_map Subtype.val preorder, List.attach_map_subtype_val]

/-- a node and all below it, parents before their parts, without what is below a node where the walk stops -/
def preorderUntil (stops : Node → Bool) (n : Node) : List Node :=
  n :: if stops n then [] else n.children.attach.flatMap fun c => c.1.preorderUntil stops
termination_by sizeOf n
decreasing_by exact sizeOf_lt_of_mem_children c.2

theorem preorderUntil_eq (stops : Node → Bool) (n : Node) :
    n.preorderUntil stops = n :: if stops n then [] else n.children.flatMap (preorderUntil stops) := by
  rw [preorderUntil]
  congr 2
  rw [← List.flatMap_map Subtype.val (preorderUntil stops), List.attach_map_subtype_val]

end Node

/-- a module: its top-level items -/
structure Module where
  items : List Node
deriving Inhabited

/-- every node of a module, parents before their parts -/
def Module.preorder (m : Module) : List Node := m.items.flatMap Node.preorder

end TsxWorkbench.Syntax
