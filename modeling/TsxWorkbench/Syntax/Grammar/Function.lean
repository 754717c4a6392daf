/-
What functions, methods, object literals and classes are made of: parameters, results, bodies and members.
-/
import TsxWorkbench.Syntax.Grammar.Type

namespace TsxWorkbench.Syntax

open Text

variable (r : Goal → Parse Node)

/-! ## Functions -/

/-- a function from its type parameters on; `lo` is where it starts. Without a body it is a declaration only -/
def functionFrom (lo : Nat) : Parse Node := do
  let types ← typeParameters r
  expectMark "("
  let params ← parameters r
  let result ← resultAnnotation? r
  if ← isMark "\x7b" then
    let body ← r .block
    return .function (← since lo) params (some body) (types ++ result.toList)
  endStatement
  return .function (← since lo) params none (types ++ result.toList)

/-- a function from the word `function` on, with its name if it has one -/
def functionAfterWord (lo : Nat) : Parse (Option String × Node) := do
  expectWord "function"
  let _ ← takeMark "*"
  let name ← given (!opensSignature (← currentToken)) (identifier .expectedName)
  return (name.map (·.1), ← functionFrom r lo)

/-! ## Object literals -/

/-- the word `async` or an asterisk before the key of a method -/
def methodMark? : Parse (Option Unit) := do
  if ← takeMark "*" then return some ()
  if ← isWord "async" then
    let next ← nextToken
    if (continuesMember next || next.isMark "*") && !next.onNewLine then
      advance
      return some ()
  return none

/-- an entry of an object literal. A method starts as its function does, at the word or the asterisk before its key -/
def objectEntry : Parse Node := do
  let lo ← here
  if ← takeMark "..." then
    let inner ← r (.assignment true false)
    return .spread (← since lo) inner
  if ← takeModifier ["get", "set"] then
    let key ← propertyKey r
    let method ← functionFrom r (← here)
    return .other (← since lo) [key, method]
  let _ ← many methodMark?
  let start ← currentToken
  let key ← propertyKey r
  let keyLo := start.span.lo
  if opensSignature (← currentToken) then
    let method ← functionFrom r (← here)
    return .other (← since lo) [key, method]
  if ← takeMark ":" then
    let value ← r (.assignment true false)
    return .keyValue (← since keyLo) key value
  match start.identifier? with
  | none => failHere (.expected ":" (← currentToken).lexeme.text)
  | some name =>
    if ← takeMark "=" then
      let initial ← r (.assignment true false)
      return .shorthandPattern (← since keyLo) name (some initial)
    return .shorthand (← since keyLo) name

/-- an object literal -/
def objectLiteral : Parse Node := do
  let lo ← here
  expectMark "\x7b"
  let entries ← itemsUntil "\x7d" (objectEntry r)
  return .object (← since lo) entries

/-! ## Classes -/

def memberModifiers : List String :=
  ["declare", "public", "private", "protected", "static", "abstract", "override", "readonly", "accessor", "get", "set",
   "async"]

/-- a word or an asterisk before the key of a member -/
def memberModifier? : Parse (Option Unit) := do
  if ← takeMark "*" then return some ()
  let token ← currentToken
  match token.lexeme with
  | .word name false =>
    let next ← nextToken
    if memberModifiers.contains name && (continuesMember next || next.isMark "*") then
      advance
      return some ()
    return none
  | _ => return none

def classMember : Parse Node := do
  let lo ← here
  if ← takeMark ";" then return .other (← since lo) []
  let marks ← decorators r
  if (← isWord "static") && (← nextToken).isMark "\x7b" then
    advance
    let body ← r .block
    return .other (← since lo) [body]
  let _ ← many memberModifier?
  if ← isMark "[" then
    if let some signature ← attempt (do
        let signature ← indexSignature r lo
        endStatement
        return signature) then return signature
  let key ← propertyKey r
  unless ← takeMark "?" do
    let _ ← takeMark "!"
  if opensSignature (← currentToken) then
    let method ← functionFrom r (← here)
    return .other (← since lo) (key :: method :: marks)
  let type ← typeAnnotation? r
  let value ← afterMark "=" (r (.assignment true false))
  endStatement
  return .other (← since lo) (key :: (value.toList ++ type.toList ++ marks))

/-- a base with its type arguments, in the head of a class or an interface -/
def heritage : Parse Node := do
  let lo ← here
  let (name, span) ← anyWord
  let base ← dottedFrom lo (.ident span name)
  let token ← currentToken
  let args ← typeArgumentsIf r (token.isMark "<" || token.isMark "<<")
  if args.isEmpty then return base
  return .other (← since lo) (base :: args)

/-- items with commas between them, at least one -/
def commaSeparated {α : Type} (item : Parse α) : Parse (List α) := do
  let first ← item
  let others ← many (afterMark "," item)
  return first :: others

/-- a class from the word `class` on; its decorators were read before -/
def classFrom (lo : Nat) (marks : List Node) : Parse Node := do
  expectWord "class"
  unless (← isWord "extends") || (← isWord "implements") || (← isMark "\x7b") || (← isMark "<") do
    let _ ← identifier .expectedName
  let types ← typeParameters r
  let base ← afterWord "extends" (r .unary)
  let token ← currentToken
  let baseTypes ← typeArgumentsIf r (base.isSome && (token.isMark "<" || token.isMark "<<"))
  let promised ← afterWord "implements" (commaSeparated (heritage r))
  expectMark "\x7b"
  let members ← bodyUntilBrace (classMember r)
  return .other (← since lo) (marks ++ members ++ base.toList ++ types ++ baseTypes ++ promised.getD [])

end TsxWorkbench.Syntax
