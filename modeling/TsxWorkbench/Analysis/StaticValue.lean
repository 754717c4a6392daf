/-
Values that an expression has in every run: strings put together from literals, and data literals. Parentheses and type
assertions around an expression count for nothing. Expressions nested deeper than `walkDepth` have no known value. The
class tokens of a module are the words of the attributes for classes whose text is known; what is put together at run
time is left out.
-/
import TsxWorkbench.Json.Value
import TsxWorkbench.Syntax.Node
import TsxWorkbench.Text.Letters

namespace TsxWorkbench.Analysis

open Syntax Number Text

/-- how deep expressions and types are followed -/
def walkDepth : Nat := 64

def unwrapAtMost : Nat → Node → Node
  | k + 1, .wrapped _ _ inner _ => unwrapAtMost k inner
  | _, n => n

/-- an expression without the parentheses and type assertions around it -/
def unwrap (n : Node) : Node := unwrapAtMost walkDepth n

/-- a function expression or an arrow function -/
def isFunction (n : Node) : Bool :=
  match unwrap n with
  | .function .. => true
  | .arrow .. => true
  | _ => false

/-! ## Strings -/

/-- text of a template without parts -/
def templateText? (texts : List String) (parts : List Node) : Option String :=
  if parts.isEmpty then some (String.join texts) else none

/-- operand of a concatenation -/
inductive Operand where
  | text (s : String)
  | number (x : Binary64)

def Operand.asText : Operand → String
  | .text s => s
  | .number x => String.ofList x.scriptText

/-- the sum of two operands as a text; two numbers do not make one -/
def Operand.concat? : Operand → Operand → Option String
  | .number _, .number _ => none
  | a, b => some (a.asText ++ b.asText)

/-- an operand that is a number or whose text the reader knows -/
def operandWith (text? : Node → Option String) (n : Node) : Option Operand :=
  match unwrap n with
  | .numLit _ x => some (.number x)
  | m => (text? m).map .text

/-- text of an expression with fewer sums in one another than a bound -/
def textWithin : Nat → Node → Option String
  | 0, _ => none
  | k + 1, n =>
    match unwrap n with
    | .strLit _ s => some s
    | .template _ texts parts => templateText? texts parts
    | .binary _ "+" left right =>
      match operandWith (textWithin k) left, operandWith (textWithin k) right with
      | some a, some b => a.concat? b
      | _, _ => none
    | _ => none

/-- text of a string literal, of a template without parts, or of a sum of those and numbers -/
def staticText? (n : Node) : Option String := textWithin (walkDepth + 1) n

/-! ## Data -/

/-- name of a property when the source shows it: a word, a string or a number -/
def staticKey? : Node → Option String
  | .ident _ name => some name
  | .strLit _ s => some s
  | .numLit _ x => some (String.ofList x.scriptText)
  | _ => none

/-- a field of an object literal whose value the reader knows -/
private def fieldWith (value? : Node → Option Json) : Node → Option (String × Json)
  | .keyValue _ key value =>
    match staticKey? key, value? value with
    | some k, some v => some (k, v)
    | _, _ => none
  | _ => none

private def valueWithin : Nat → Node → Option Json
  | 0, _ => none
  | k + 1, n =>
    match unwrap n with
    | .strLit _ s => some (.string s)
    | .numLit _ x => Json.ofNumber? x
    | .boolLit _ b => some (.bool b)
    | .nullLit _ => some .null
    | .template _ texts parts => (templateText? texts parts).map .string
    | .unary _ "-" operand =>
      match unwrap operand with
      | .numLit _ x => Json.ofNumber? x.neg
      | _ => none
    | .array _ elements => (elements.mapM (valueWithin k)).map .array
    | .object _ entries =>
      (entries.mapM (fieldWith (valueWithin k))).map fun fields =>
        .object (fields.foldl (fun done f => Json.setField done f.1 f.2) [])
    | _ => none

/-- data that a literal denotes: arrays and objects only if all in them is data as well -/
def staticValue? (n : Node) : Option Json := valueWithin (walkDepth + 1) n

/-! ## Attributes -/

/-- expression between the braces of an attribute value -/
def containedExpression? : Node → Option Node
  | .container _ (some inner) => some (unwrap inner)
  | _ => none

/-- text of an attribute value, quoted or as an expression -/
def attributeText? : Node → Option String
  | .strLit _ s => some s
  | n => (containedExpression? n).bind staticText?

/-! ## Class tokens -/

/-- names of the attribute that holds classes -/
def isClassAttribute (name : String) : Bool := name == "className" || name == "class"

/-- class tokens of a node, if it is a class attribute -/
def classTokens : Node → List String
  | .attr _ name value =>
    if isClassAttribute name then
      ((value.bind attributeText?).map fun s => (words s.toList).map String.ofList).getD []
    else []
  | _ => []

/-- all class tokens of a module, sorted and without repetitions -/
def candidates (m : Module) : List String := sortedTexts (m.preorder.flatMap classTokens)

end TsxWorkbench.Analysis
