/-
Statements and the items of a module: control flow, imports and exports.
-/
import TsxWorkbench.Syntax.Grammar.Declaration

namespace TsxWorkbench.Syntax

open Text

variable (r : Goal → Parse Node)

/-! ## Control flow -/

/-- statements between braces -/
def block : Parse Node := do
  let lo ← here
  expectMark "\x7b"
  let items ← bodyUntilBrace (r (.statement false))
  return .other (← since lo) items

def condition : Parse Node := do
  expectMark "("
  let test ← r (.expression true)
  expectMark ")"
  return test

def ifStatement (lo : Nat) : Parse Node := do
  expectWord "if"
  let test ← condition r
  let yes ← r (.statement false)
  let no ← afterWord "else" (r (.statement false))
  return .other (← since lo) (test :: yes :: no.toList)

def whileStatement (lo : Nat) : Parse Node := do
  advance
  let test ← condition r
  let body ← r (.statement false)
  return .other (← since lo) [test, body]

def doStatement (lo : Nat) : Parse Node := do
  expectWord "do"
  let body ← r (.statement false)
  expectWord "while"
  let test ← condition r
  let _ ← takeMark ";"
  return .other (← since lo) [test, body]

/-- what a loop starts with: variables, an expression or nothing -/
def loopStart : Parse (Option Node) := do
  if ← isMark ";" then return none
  let lo ← here
  if ← takeVariableWord then return some (← variablesFrom r lo false)
  return some (← r (.expression false))

def optionalUntil (close : String) : Parse (Option Node) := do
  if ← takeMark close then return none
  let node ← r (.expression true)
  expectMark close
  return some node

def forStatement (lo : Nat) : Parse Node := do
  expectWord "for"
  let _ ← takeWord "await"
  expectMark "("
  let start ← loopStart r
  if let some left := start then
    if ← takeWord "of" then
      let right ← r (.assignment true false)
      expectMark ")"
      let body ← r (.statement false)
      return .other (← since lo) [targetOf left, right, body]
    if ← takeWord "in" then
      let right ← r (.expression true)
      expectMark ")"
      let body ← r (.statement false)
      return .other (← since lo) [targetOf left, right, body]
  expectMark ";"
  let test ← optionalUntil r ";"
  let update ← optionalUntil r ")"
  let body ← r (.statement false)
  return .other (← since lo) (start.toList ++ test.toList ++ update.toList ++ [body])
where
  targetOf (left : Node) : Node :=
    match left with
    | .variableList .. => left
    | _ => asTarget left

def switchCase : Parse Node := do
  let lo ← here
  let test ← if ← takeWord "default" then pure none
    else do
      expectWord "case"
      some <$> r (.expression true)
  expectMark ":"
  let body ← many do
    if (← isWord "case") || (← isWord "default") || (← isMark "\x7d") then return none
    return some (← r (.statement false))
  return .other (← since lo) (test.toList ++ body)

def switchStatement (lo : Nat) : Parse Node := do
  expectWord "switch"
  let value ← condition r
  expectMark "\x7b"
  let cases ← runUntil "\x7d" (switchCase r)
  return .other (← since lo) (value :: cases)

def catchClause : Parse Node := do
  let lo ← here
  expectWord "catch"
  let param ← if ← takeMark "(" then do
      let target ← typedTarget r
      expectMark ")"
      pure (some target)
    else pure none
  let body ← block r
  return .other (← since lo) (param.toList ++ [body])

def tryStatement (lo : Nat) : Parse Node := do
  expectWord "try"
  let body ← block r
  let handler ← given (← isWord "catch") (catchClause r)
  let last ← afterWord "finally" (block r)
  return .other (← since lo) (body :: (handler.toList ++ last.toList))

/-- a word followed by an expression on the same line, if there is one -/
def jumpStatement (lo : Nat) : Parse Node := do
  advance
  let token ← currentToken
  let ends := token.onNewLine || token.isFinish || token.isMark ";" || token.isMark "\x7d"
  let value ← given (!ends) (r (.expression true))
  endStatement
  return .other (← since lo) value.toList

/-- a statement that starts with a reserved word, if one starts here -/
def reservedStatement? (token : Token) : Parse (Option Node) := do
  let lo := token.span.lo
  match token.lexeme with
  | .word name false =>
    match name with
    | "if" => some <$> ifStatement r lo
    | "while" => some <$> whileStatement r lo
    | "with" => some <$> whileStatement r lo
    | "do" => some <$> doStatement r lo
    | "for" => some <$> forStatement r lo
    | "switch" => some <$> switchStatement r lo
    | "try" => some <$> tryStatement r lo
    | "return" => some <$> jumpStatement r lo
    | "throw" => some <$> jumpStatement r lo
    | "break" => some <$> jumpStatement r lo
    | "continue" => some <$> jumpStatement r lo
    | "debugger" => some <$> jumpStatement r lo
    | _ => return none
  | _ => return none

/-! ## Imports -/

/-- options of a source, as in `with` and an object -/
def sourceOptions : Parse (Option Node) := do
  given ((← isWord "with") || ((← isWord "assert") && !(← currentToken).onNewLine)) do
    advance
    objectLiteral r

/-- name of an import or export, which may also be a string -/
def moduleName : Parse String := do
  match (← currentToken).lexeme with
  | .string _ => return (← stringLiteral).1
  | _ => return (← anyWord).1

def importName : Parse Unit := do
  if (← isWord "type") && (match (← nextToken).lexeme with
      | .word name _ => name != "as"
      | .string _ => true
      | _ => false) then advance
  let _ ← moduleName
  if ← takeWord "as" then
    let _ ← anyWord

/-- what an import binds, up to the word before its source -/
def importClause : Parse Unit := do
  if ← takeMark "*" then
    expectWord "as"
    let _ ← identifier .expectedName
  else if ← takeMark "\x7b" then
    let _ ← itemsUntil "\x7d" importName
  else
    let _ ← identifier .expectedName
    if ← takeMark "," then
      if ← takeMark "*" then
        expectWord "as"
        let _ ← identifier .expectedName
      else
        expectMark "\x7b"
        let _ ← itemsUntil "\x7d" importName

/-- the words `type` and `defer` before what an import binds -/
def importPhase : Parse Unit := do
  if (← isWord "type") || (← isWord "defer") || (← isWord "source") then
    let next ← nextToken
    if (next.identifier?.isSome && !next.isWord "from") || next.isMark "\x7b" || next.isMark "*" then advance

/-- an import of another module's exports by assignment, after its name -/
def importAssignment (lo : Nat) : Parse Node := do
  expectMark "="
  let value ← r .unary
  endStatement
  return .other (← since lo) [value]

def importDeclaration (lo : Nat) : Parse Node := do
  expectWord "import"
  match (← currentToken).lexeme with
  | .string source =>
    advance
    importedFrom source
  | _ =>
    importPhase
    if (← currentToken).identifier?.isSome && (← nextToken).isMark "=" then
      advance
      return ← importAssignment r lo
    importClause
    expectWord "from"
    let (source, _) ← stringLiteral
    importedFrom source
where
  importedFrom (source : String) : Parse Node := do
    let options ← sourceOptions r
    endStatement
    return .importFrom (← since lo) source options

/-! ## Exports -/

def exportedName : Parse Node := do
  let lo ← here
  let typeOnly ← if (← isWord "type") && (match (← nextToken).lexeme with
      | .word name _ => name != "as"
      | .string _ => true
      | _ => false) then do
      advance
      pure true
    else pure false
  let token ← currentToken
  let local? := token.name?
  let name ← moduleName
  let exported ← if ← takeWord "as" then moduleName else pure name
  return .exportName (← since lo) local? exported typeOnly

/-- the module that names are exported from, with its options -/
def exportSource : Parse (Option String × Option Node) := do
  if ← takeWord "from" then
    let (source, _) ← stringLiteral
    let options ← sourceOptions r
    return (some source, options)
  return (none, none)

def exportNames (lo : Nat) (typeOnly : Bool) : Parse Node := do
  expectMark "\x7b"
  let names ← itemsUntil "\x7d" exportedName
  let (source, options) ← exportSource r
  endStatement
  return .exportNames (← since lo) names source options typeOnly

def exportEverything (lo : Nat) : Parse Node := do
  expectMark "*"
  if ← takeWord "as" then
    let _ ← moduleName
  expectWord "from"
  let (source, _) ← stringLiteral
  let options ← sourceOptions r
  endStatement
  return .exportAll (← since lo) source options

def exportDefault (lo : Nat) (marks : List Node) : Parse Node := do
  expectWord "default"
  let token ← currentToken
  let next ← nextToken
  if ← startsFunction then
    let start ← here
    let _ ← takeWord "async"
    let (_, inner) ← functionAfterWord r start
    return .exportDefaultDeclaration (← since lo) inner
  if ← startsClass then
    let inner ← classDeclaration r (← here) marks
    return .exportDefaultDeclaration (← since lo) inner
  if token.isWord "interface" && next.identifier?.isSome && !next.onNewLine then
    if let some inner ← declaration? r then return .exportDefaultDeclaration (← since lo) inner
  let expression ← r (.assignment true false)
  endStatement
  return .exportDefaultExpression (← since lo) expression

def exportDeclaration (lo : Nat) (marks : List Node) : Parse Node := do
  expectWord "export"
  let token ← currentToken
  let next ← nextToken
  if token.isWord "default" then return ← exportDefault r lo marks
  if token.isMark "\x7b" then return ← exportNames r lo false
  if token.isMark "*" then return ← exportEverything r lo
  if token.isWord "type" && (next.isMark "\x7b" || next.isMark "*") then
    advance
    if next.isMark "*" then return ← exportEverything r lo
    return ← exportNames r lo true
  if ← takeMark "=" then
    let value ← r (.expression true)
    endStatement
    return .other (← since lo) [value]
  if token.isWord "as" && next.isWord "namespace" then
    advance
    advance
    let _ ← identifier .expectedName
    endStatement
    return .other (← since lo) []
  if token.isWord "import" then
    advance
    let _ ← takeWord "type"
    let _ ← identifier .expectedName
    return ← importAssignment r lo
  if ← startsClass then
    let inner ← classDeclaration r (← here) marks
    return .exportDeclaration (← since lo) inner
  match ← declaration? r with
  | some inner => return .exportDeclaration (← since lo) inner
  | none => failHere (.expected "\x7b" token.lexeme.text)

/-! ## Statements -/

def expressionStatement (lo : Nat) : Parse Node := do
  let inner ← r (.expression true)
  endStatement
  return .other (← since lo) [inner]

/-- a statement; imports and exports stand at the top level only -/
def statement (topLevel : Bool) : Parse Node := do
  let token ← currentToken
  let lo := token.span.lo
  if token.isMark "\x7b" then return ← block r
  if ← takeMark ";" then return .other (← since lo) []
  if let some node ← reservedStatement? r token then return node
  let next ← nextToken
  if topLevel && token.isWord "import" && !next.isMark "(" && !next.isMark "." then return ← importDeclaration r lo
  if topLevel && token.isWord "export" then return ← exportDeclaration r lo []
  if token.isMark "@" then
    let marks ← decorators r
    if topLevel && (← isWord "export") then return ← exportDeclaration r lo marks
    return ← classDeclaration r lo marks
  if let some node ← declaration? r then return node
  if token.identifier?.isSome && next.isMark ":" then
    advance
    advance
    let body ← r (.statement false)
    return .other (← since lo) [body]
  expressionStatement r lo

end TsxWorkbench.Syntax
