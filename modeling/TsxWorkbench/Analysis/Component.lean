/-
Exported components of a module: functions that an export reaches, through at most `maxHops` names and first arguments
of calls. Each comes with its first parameter, its body and the type that its variable declares for its props.
-/
import TsxWorkbench.Analysis.TypeScope

namespace TsxWorkbench.Analysis

open Syntax

/-- names and calls allowed between an export and its function, as in a memoised component -/
def maxHops : Nat := 2

/-- a function that may be a component -/
structure Component where
  param : Option Node
  body : Option Node
  declaredProps : Option Node
deriving Inhabited

/-- the component that a function expression is -/
def Component.ofFunction? : Node → Option Component
  | .function _ params body _ => some ⟨params.head?, body, none⟩
  | .arrow _ params body _ => some ⟨params.head?, some body, none⟩
  | _ => none

/-! ## Local names -/

/-- what a top-level variable starts as, and the type that it declares for the props of a component -/
structure LocalVariable where
  initial : Node
  declaredProps : Option Node

/-- top-level functions and variables of a module, the latest first -/
structure Locals where
  functions : List (String × Component)
  bindings : List (String × LocalVariable)

/-- last name of a dotted path -/
def lastSegment (path : String) : List Char := (path.toList.reverse.takeWhile (· ≠ '.')).reverse

/-- names of the types of function components -/
def componentTypes : List String := ["FC", "FunctionComponent", "VFC", "VoidFunctionComponent"]

/-- the props type in the type of a variable that holds a component -/
def declaredPropsType? : Node → Option Node
  | .namedType _ name args => if componentTypes.contains (String.ofList (lastSegment name)) then args.head? else none
  | _ => none

/-- the function that an item declares, exported or not -/
def localFunction? (item : Node) : Option (String × Component) :=
  match declarationOf item with
  | .functionDeclaration _ name inner => (Component.ofFunction? inner).map fun c => (name, c)
  | _ => none

/-- the variable of a declarator that gives it a value -/
def localVariable? : Node → Option (String × LocalVariable)
  | .declarator _ (.binding _ name type) (some initial) => some (name, ⟨initial, type.bind declaredPropsType?⟩)
  | _ => none

/-- the variables that an item declares, exported or not -/
def localVariables (item : Node) : List (String × LocalVariable) :=
  match declarationOf item with
  | .variableList _ declarators => declarators.filterMap localVariable?
  | _ => []

def Locals.ofModule (m : Module) : Locals :=
  ⟨(m.items.filterMap localFunction?).reverse, (m.items.flatMap localVariables).reverse⟩

def Locals.functionNamed? (l : Locals) (name : String) : Option Component :=
  (l.functions.find? (·.1 == name)).map (·.2)

def Locals.variableNamed? (l : Locals) (name : String) : Option LocalVariable :=
  (l.bindings.find? (·.1 == name)).map (·.2)

/-! ## From an export to its function -/

/-- first argument of a call -/
def firstArgument? : Node → Option Node
  | .call _ _ (first :: _) _ => some first
  | .importCall _ (first :: _) => some first
  | _ => none

/-- the function that an expression reaches: it is one, or it names one, or it passes one on as its first argument. Names
of variables and calls take a hop each -/
def componentOf? (l : Locals) : Nat → Node → Option Node → Option Component
  | hops, n, declared =>
    match Component.ofFunction? (unwrap n) with
    | some c => some { c with declaredProps := declared }
    | none =>
      match hops with
      | 0 => none
      | k + 1 =>
        match unwrap n with
        | .ident _ name =>
          match l.functionNamed? name with
          | some c => some c
          | none => (l.variableNamed? name).bind fun v => componentOf? l k v.initial v.declaredProps
        | m =>
          match firstArgument? m with
          | some (.spread ..) => none
          | some argument => componentOf? l k argument declared
          | none => none

/-- the function that a top-level name reaches; going to its own declaration takes no hop -/
def componentNamed? (l : Locals) (name : String) : Option Component :=
  match l.functionNamed? name with
  | some c => some c
  | none => (l.variableNamed? name).bind fun v => componentOf? l maxHops v.initial v.declaredProps

/-! ## Exports -/

/-- name under which a default export is listed -/
def defaultName : String := "default"

def exportedVariable (l : Locals) : Node → Option (String × Component)
  | .declarator _ (.binding _ name _) _ => (componentNamed? l name).map fun c => (name, c)
  | _ => none

def exportedName (l : Locals) : Node → Option (String × Component)
  | .exportName _ (some local_) exported false => (componentNamed? l local_).map fun c => (exported, c)
  | _ => none

/-- what an item exports, as far as that reaches a function. Types and what other modules export are left out -/
def exportsOf (l : Locals) : Node → List (String × Component)
  | .exportDefaultDeclaration _ inner =>
    match inner with
    | .function .. => ((Component.ofFunction? inner).map fun c => (defaultName, c)).toList
    | _ => []
  | .exportDefaultExpression _ inner => ((componentOf? l maxHops inner none).map fun c => (defaultName, c)).toList
  | .exportDeclaration _ inner =>
    match inner with
    | .functionDeclaration _ name f => ((Component.ofFunction? f).map fun c => (name, c)).toList
    | .variableList _ declarators => declarators.filterMap (exportedVariable l)
    | _ => []
  | .exportNames _ names none _ false => names.filterMap (exportedName l)
  | _ => []

/-- exported components with the names they are exported by, in the order of the exports -/
def exportedComponents (m : Module) : List (String × Component) :=
  let l := Locals.ofModule m
  m.items.flatMap (exportsOf l)

end TsxWorkbench.Analysis
