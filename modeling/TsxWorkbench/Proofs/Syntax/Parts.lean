/-
A node with other parts: of the same form, with the same names and marks, and with other nodes for its parts, in the
order in which `children` lists them. With its own parts a node is as it was (`withParts_children`).
-/
import TsxWorkbench.Syntax.Node
import Mathlib.Data.List.Basic

namespace TsxWorkbench.Syntax

namespace Node

/-- a node of the same form with other parts, in the order of `children` -/
def withParts : Node → List Node → Node
  | .template s texts _, ps => .template s texts ps
  | .wrapped s kind inner _, ps => .wrapped s kind (ps.headD inner) ps.tail
  | .array s _, ps => .array s ps
  | .spread s inner, ps => .spread s (ps.headD inner)
  | .object s _, ps => .object s ps
  | .keyValue s key value, ps => .keyValue s (ps.headD key) (ps.tail.headD value)
  | .computed s inner, ps => .computed s (ps.headD inner)
  | .unary s op operand, ps => .unary s op (ps.headD operand)
  | .binary s op left right, ps => .binary s op (ps.headD left) (ps.tail.headD right)
  | .assign s target value, ps => .assign s (ps.headD target) (ps.tail.headD value)
  | .call s callee args _, ps => .call s (ps.headD callee) (ps.tail.take args.length) (ps.tail.drop args.length)
  | .importCall s _, ps => .importCall s ps
  | .construct s callee args _, ps =>
    .construct s (ps.headD callee) (ps.tail.take args.length) (ps.tail.drop args.length)
  | .member s base property, ps => .member s (ps.headD base) (ps.tail.headD property)
  | .function s params body _, ps =>
    let rest := ps.drop params.length
    .function s (ps.take params.length) (rest.take body.toList.length).head? (rest.drop body.toList.length)
  | .arrow s params body _, ps =>
    let rest := ps.drop params.length
    .arrow s (ps.take params.length) (rest.headD body) rest.tail
  | .element s tag opening closing attributes types _, ps =>
    let rest := ps.drop attributes.length
    .element s tag opening closing (ps.take attributes.length) (rest.take types.length) (rest.drop types.length)
  | .fragment s _, ps => .fragment s ps
  | .attr s name _, ps => .attr s name ps.head?
  | .container s _, ps => .container s ps.head?
  | .binding s name _, ps => .binding s name ps.head?
  | .objectPattern s entries _, ps => .objectPattern s (ps.take entries.length) (ps.drop entries.length).head?
  | .shorthandPattern s name _, ps => .shorthandPattern s name ps.head?
  | .withDefault s target initial, ps => .withDefault s (ps.headD target) (ps.tail.headD initial)
  | .variableList s _, ps => .variableList s ps
  | .declarator s target _, ps => .declarator s (ps.headD target) ps.tail.head?
  | .functionDeclaration s name inner, ps => .functionDeclaration s name (ps.headD inner)
  | .typeAlias s name params type, ps =>
    .typeAlias s name (ps.take params.length) ((ps.drop params.length).headD type)
  | .interface s name types bases _, ps =>
    let rest := ps.drop types.length
    .interface s name (ps.take types.length) (rest.take bases.length) (rest.drop bases.length)
  | .importFrom s source _, ps => .importFrom s source ps.head?
  | .exportDeclaration s declaration, ps => .exportDeclaration s (ps.headD declaration)
  | .exportDefaultDeclaration s declaration, ps => .exportDefaultDeclaration s (ps.headD declaration)
  | .exportDefaultExpression s expression, ps => .exportDefaultExpression s (ps.headD expression)
  | .exportNames s names source _ typeOnly, ps =>
    .exportNames s (ps.take names.length) source (ps.drop names.length).head? typeOnly
  | .exportAll s source _, ps => .exportAll s source ps.head?
  | .literalType s literal, ps => .literalType s (ps.headD literal)
  | .listType s _, ps => .listType s ps
  | .objectType s _, ps => .objectType s ps
  | .mappedType s _, ps => .mappedType s ps
  | .parenthesizedType s inner, ps => .parenthesizedType s (ps.headD inner)
  | .modifiedType s inner, ps => .modifiedType s (ps.headD inner)
  | .unionType s _, ps => .unionType s ps
  | .intersectionType s _, ps => .intersectionType s ps
  | .namedType s name _, ps => .namedType s name ps
  | .propertySignature s key isComputed isOptional _, ps =>
    .propertySignature s (ps.headD key) isComputed isOptional ps.tail.head?
  | .other s _, ps => .other s ps
  | n, _ => n

theorem withParts_children (n : Node) : n.withParts n.children = n := by
  have head {α : Type} (o : Option α) : o.toList.head? = o := by cases o <;> rfl
  cases n <;> simp [withParts, children, head]

end Node

end TsxWorkbench.Syntax
