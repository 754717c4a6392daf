/-
Declarations: variables, functions, classes, and the declarations of types.
-/
import TsxWorkbench.Syntax.Grammar.Function

namespace TsxWorkbench.Syntax

open Text

variable (r : Goal → Parse Node)

/-! ## Variables -/

def declarator (allowIn : Bool) : Parse Node := do
  let lo ← here
  let target ← r .target
  let _ ← takeMark "!"
  let type ← typeAnnotation? r
  let hi := (← get).previous.hi
  let typed := if type.isSome then withType type hi target else target
  let initial ← afterMark "=" (r (.assignment allowIn false))
  return .declarator (← since lo) typed initial

/-- variables after the word that declares them -/
def variablesFrom (lo : Nat) (allowIn : Bool) : Parse Node := do
  let declarators ← commaSeparated (declarator r allowIn)
  return .variableList (← since lo) declarators

/-- the words that declare variables, if they come next; two of them are names unless a name follows -/
def takeVariableWord : Parse Bool := do
  let token ← currentToken
  if token.isWord "var" || token.isWord "const" then
    advance
    return true
  let next ← nextToken
  if token.isWord "let" && (next.identifier?.isSome || next.isMark "[" || next.isMark "\x7b") then
    advance
    return true
  if token.isWord "using" && next.identifier?.isSome && !next.onNewLine && !next.isWord "of" then
    advance
    return true
  if token.isWord "await" && next.isWord "using" && !next.onNewLine then
    let start ← get
    advance
    let last ← nextToken
    if last.identifier?.isSome && !last.onNewLine then
      advance
      return true
    set start
  return false

/-! ## Functions -/

/-- whether a function declaration starts here -/
def startsFunction : Parse Bool := do
  let token ← currentToken
  if token.isWord "function" then return true
  let next ← nextToken
  return token.isWord "async" && next.isWord "function" && !next.onNewLine

def functionDeclaration : Parse Node := do
  let lo ← here
  let _ ← takeWord "async"
  let (name, inner) ← functionAfterWord r lo
  return .functionDeclaration (← since lo) (name.getD "") inner

/-! ## Classes -/

/-- whether a class declaration starts here -/
def startsClass : Parse Bool := do
  let token ← currentToken
  if token.isWord "class" || token.isMark "@" then return true
  let next ← nextToken
  return token.isWord "abstract" && next.isWord "class" && !next.onNewLine

/-- a class with its decorators, which may also stand before the word `export` -/
def classDeclaration (lo : Nat) (marks : List Node) : Parse Node := do
  let more ← decorators r
  let _ ← takeWord "abstract"
  classFrom r lo (marks ++ more)

/-! ## Types -/

def typeAlias (lo : Nat) : Parse Node := do
  expectWord "type"
  let (name, _) ← identifier .expectedName
  let params ← typeParameters r
  expectMark "="
  let type ← r .type
  endStatement
  return .typeAlias (← since lo) name params type

def interface (lo : Nat) : Parse Node := do
  expectWord "interface"
  let (name, _) ← identifier .expectedName
  let params ← typeParameters r
  let bases ← afterWord "extends" (commaSeparated heritageOfInterface)
  expectMark "\x7b"
  let members ← typeMembers r
  let bases := bases.getD []
  return .interface (← since lo) name (params ++ bases.flatMap Prod.snd) (bases.map Prod.fst) members
where
  /-- a base and its type arguments, which the types of the interface take in -/
  heritageOfInterface : Parse (Node × List Node) := do
    match ← heritage r with
    | .other _ (base :: args) => return (base, args)
    | base => return (base, [])

def enumMember : Parse Node := do
  let lo ← here
  let key ← propertyKey r
  let value ← afterMark "=" (r (.assignment true false))
  return .other (← since lo) (key :: value.toList)

def enumFrom (lo : Nat) : Parse Node := do
  expectWord "enum"
  let _ ← identifier .expectedName
  expectMark "\x7b"
  let members ← itemsUntil "\x7d" (enumMember r)
  return .other (← since lo) members

/-! ## Namespaces -/

def namespaceName : Parse Unit := do
  match (← currentToken).lexeme with
  | .string _ => advance
  | _ =>
    let (name, span) ← identifier .expectedName
    let _ ← dottedFrom span.lo (.ident span name)

def namespaceFrom (lo : Nat) : Parse Node := do
  let _ ← anyWord
  unless ← isMark "\x7b" do namespaceName
  if ← takeMark "\x7b" then
    let items ← bodyUntilBrace (r (.statement true))
    return .other (← since lo) items
  endStatement
  return .other (← since lo) []

/-! ## Choice -/

def isNamedBy (token next : Token) (word : String) : Bool :=
  token.isWord word && next.identifier?.isSome && !next.onNewLine

def startsNamespace (token next : Token) : Bool :=
  isNamedBy token next "namespace" || isNamedBy token next "module" ||
    (token.isWord "module" && !next.onNewLine && (match next.lexeme with
      | .string _ => true
      | _ => false)) ||
    (token.isWord "global" && next.isMark "\x7b")

/-- a declaration other than of variables and of the bare names, if one starts here. What follows the word `declare`
is a declaration without a value -/
def typeDeclaration? (lo : Nat) : Parse (Option Node) := do
  let token ← currentToken
  let next ← nextToken
  if isNamedBy token next "type" then return some (← typeAlias r lo)
  if isNamedBy token next "interface" then return some (← interface r lo)
  if token.isWord "enum" then return some (← enumFrom r lo)
  if token.isWord "const" && next.isWord "enum" then
    advance
    return some (← enumFrom r lo)
  if startsNamespace token next then return some (← namespaceFrom r lo)
  return none

/-- words that a declaration without a value may go on with -/
def declarable : List String :=
  ["function", "async", "const", "let", "var", "class", "abstract", "enum", "interface", "type", "namespace", "module",
   "global", "using"]

def isDeclarable (t : Token) : Bool :=
  match t.lexeme with
  | .word name false => declarable.contains name
  | _ => false

/-- a declaration, if one starts here -/
def declaration? : Parse (Option Node) := do
  let lo ← here
  let token ← currentToken
  let next ← nextToken
  if token.isWord "declare" && !next.onNewLine && isDeclarable next then advance
  if let some node ← typeDeclaration? r lo then return some node
  if ← startsFunction then return some (← functionDeclaration r)
  if ← startsClass then return some (← classDeclaration r lo [])
  if ← takeVariableWord then
    let node ← variablesFrom r lo true
    endStatement
    return some node
  return none

end TsxWorkbench.Syntax
