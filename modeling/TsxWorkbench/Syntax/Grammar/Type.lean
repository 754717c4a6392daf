/-
Types: unions and intersections of operators on references, literals, lists, object types, functions and conditions.
-/
import TsxWorkbench.Syntax.Grammar.Pattern
import TsxWorkbench.Syntax.Grammar.Template

namespace TsxWorkbench.Syntax

open Text

variable (r : Goal → Parse Node)

/-! ## Arguments and parameters -/

/-- types between angle brackets; the closing bracket may be the start of a longer mark -/
def typeArguments : Parse (List Node) := do
  splitMark '<'
  expectMark "<"
  let args ← many do
    splitMark '>'
    if ← isMark ">" then return none
    let type ← r .type
    splitMark '>'
    separator ">"
    return some type
  expectMark ">"
  return args

/-- type arguments, if they are to be read at all -/
def typeArgumentsIf (condition : Bool) : Parse (List Node) := do return (← given condition (typeArguments r)).getD []

def typeParameter : Parse Node := do
  let lo ← here
  let _ ← many do
    let token ← currentToken
    if (token.isWord "const" || token.isWord "in" || token.isWord "out") && (← nextToken).name?.isSome then
      advance
      return some ()
    return none
  let _ ← identifier .expectedName
  let bound ← afterWord "extends" (r .type)
  let initial ← afterMark "=" (r .type)
  return .other (← since lo) (bound.toList ++ initial.toList)

/-- type parameters, if a list of them comes next -/
def typeParameters : Parse (List Node) := do
  if ← takeMark "<" then
    many do
      splitMark '>'
      if ← takeMark ">" then return none
      let parameter ← typeParameter r
      splitMark '>'
      separator ">"
      return some parameter
  else return []

/-! ## References -/

/-- names joined by dots -/
def entityName : Parse String := do
  let (first, _) ← anyWord
  extend (fun path => do
    if ← takeMark "." then
      let (name, _) ← anyWord
      return some (path ++ "." ++ name)
    return none) first

/-- type arguments on the same line -/
def argumentsOfReference : Parse (List Node) := do
  let token ← currentToken
  typeArgumentsIf r (!token.onNewLine && (token.isMark "<" || token.isMark "<<"))

def typeReference : Parse Node := do
  let lo ← here
  let name ← entityName
  let args ← argumentsOfReference r
  return .namedType (← since lo) name args

/-- words that name a type of their own unless a dot follows -/
def keywordTypes : List String :=
  ["any", "unknown", "number", "object", "boolean", "bigint", "string", "symbol", "undefined", "never", "null", "void"]

/-! ## Results of functions -/

/-- a result type, which may be a condition on a parameter -/
def resultType : Parse Node := do
  let lo ← here
  if ← isWord "asserts" then
    let next ← nextToken
    if next.name?.isSome && !next.onNewLine && !next.isWord "is" then
      advance
      let _ ← anyWord
      let type ← afterWord "is" (r .type)
      return .other (← since lo) type.toList
  let token ← currentToken
  if token.name?.isSome then
    let next ← nextToken
    if next.isWord "is" && !next.onNewLine then
      advance
      advance
      let type ← r .type
      return .other (← since lo) [type]
  r .type

/-- the result type after a colon, if there is one -/
def resultAnnotation? : Parse (Option Node) := afterMark ":" (resultType r)

/-- parameters, arrow and result of a function type -/
def functionTypeFrom (lo : Nat) : Parse Node := do
  let types ← typeParameters r
  expectMark "("
  let params ← parameters r
  expectMark "=>"
  let result ← resultType r
  return .other (← since lo) (params ++ types ++ [result])

/-- parameters and result of a signature without a body -/
def signatureFrom (lo : Nat) (parts : List Node) : Parse Node := do
  let types ← typeParameters r
  expectMark "("
  let params ← parameters r
  let result ← resultAnnotation? r
  return .other (← since lo) (parts ++ params ++ types ++ result.toList)

/-! ## Members of object types -/

def opensSignature (t : Token) : Bool := t.isMark "(" || t.isMark "<"

/-- whether a token that follows a word makes that word a modifier and not the name of the member -/
def continuesMember (t : Token) : Bool :=
  match t.lexeme with
  | .word .. | .string _ | .number _ | .bigNumber _ | .privateName _ => true
  | .mark m => m == "["
  | _ => false

/-- a modifier before a member: one of the given words, if a key follows -/
def takeModifier (words : List String) : Parse Bool := do
  let token ← currentToken
  match token.lexeme with
  | .word name false =>
    if words.contains name && continuesMember (← nextToken) then
      advance
      return true
    return false
  | _ => return false

/-- an index signature: the type of a key in brackets, and the type of its values -/
def indexSignature (lo : Nat) : Parse Node := do
  expectMark "["
  let _ ← anyWord
  expectMark ":"
  let key ← r .type
  expectMark "]"
  let type ← typeAnnotation? r
  return .other (← since lo) (key :: type.toList)

def memberKey : Parse (Node × Bool) := do
  match ← propertyKey r with
  | .computed _ inner => return (inner, true)
  | key => return (key, false)

def typeMember : Parse Node := do
  let lo ← here
  if opensSignature (← currentToken) then return ← signatureFrom r lo []
  if (← isWord "new") && opensSignature (← nextToken) then
    advance
    return ← signatureFrom r lo []
  let _ ← takeModifier ["readonly"]
  if ← isMark "[" then
    if let some signature ← attempt (indexSignature r lo) then return signature
  if ← takeModifier ["get", "set"] then
    let key ← propertyKey r
    return ← signatureFrom r lo [key]
  let (key, isComputed) ← memberKey r
  let isOptional ← takeMark "?"
  if opensSignature (← currentToken) then return ← signatureFrom r lo [key]
  let type ← typeAnnotation? r
  return .propertySignature (← since lo) key isComputed isOptional type

/-- members between braces, after the opening one -/
def typeMembers : Parse (List Node) :=
  runUntil "\x7d" do
    let m ← typeMember r
    unless ← takeMark "," do endStatement
    return m

/-! ## Mapped types -/

def mappedModifier (word : String) : Parse Unit := do
  if (← isMark "+") || (← isMark "-") then
    advance
    expectWord word
  else
    let _ ← takeWord word

def mappedHead : Parse Unit := do
  expectMark "\x7b"
  mappedModifier "readonly"
  expectMark "["
  let _ ← anyWord
  expectWord "in"

def mappedTypeFrom (lo : Nat) : Parse Node := do
  let keys ← r .type
  let renamed ← afterWord "as" (r .type)
  expectMark "]"
  if (← isMark "+") || (← isMark "-") then
    advance
    expectMark "?"
  else
    let _ ← takeMark "?"
  let type ← typeAnnotation? r
  let _ ← takeMark ";"
  let _ ← takeMark ","
  expectMark "\x7d"
  return .mappedType (← since lo) (keys :: (renamed.toList ++ type.toList))

/-! ## Tuples -/

def tupleLabel : Parse Unit := do
  let _ ← anyWord
  let _ ← takeMark "?"
  expectMark ":"

def tupleItem : Parse Node := do
  let lo ← here
  let isRest ← takeMark "..."
  let _ ← attempt tupleLabel
  let type ← r .type
  if ← takeMark "?" then return .modifiedType (← since lo) type
  if isRest then return .other (← since lo) [type]
  return type

/-! ## Types without operators -/

def numberType (lo : Nat) (negative : Bool) : Parse Node := do
  let token ← currentToken
  match token.lexeme with
  | .number value =>
    advance
    let span ← since lo
    return .literalType span (.numLit span (if negative then value.neg else value))
  | .bigNumber _ =>
    advance
    let span ← since lo
    return .literalType span (.other span [])
  | _ => failHere .expectedExpression

/-- options after the name of a module -/
def typeOptions : Parse (Option Node) := do
  if ← takeMark "," then
    let options ← given (!(← isMark ")")) (r (.assignment true false))
    let _ ← takeMark ","
    return options
  return none

def importType (lo : Nat) : Parse Node := do
  expectWord "import"
  expectMark "("
  let _ ← stringLiteral
  let options ← typeOptions r
  expectMark ")"
  if ← takeMark "." then
    let _ ← entityName
  let args ← argumentsOfReference r
  return .other (← since lo) (args ++ options.toList)

def queryType (lo : Nat) : Parse Node := do
  expectWord "typeof"
  if ← isWord "import" then return ← importType r lo
  let _ ← entityName
  let args ← argumentsOfReference r
  return .other (← since lo) args

def wordType (token : Token) (name : String) : Parse Node := do
  let lo := token.span.lo
  let isPath := (← nextToken).isMark "."
  if token.isWord name && !isPath then
    if keywordTypes.contains name then
      advance
      return .keywordType token.span name
    if name == "true" || name == "false" then
      advance
      return .literalType token.span (.boolLit token.span (name == "true"))
    if name == "this" then
      advance
      return .other token.span []
  if token.isWord "typeof" then return ← queryType r lo
  if token.isWord "import" then return ← importType r lo
  if token.identifier?.isNone then failHere .expectedExpression
  typeReference r

def primaryType : Parse Node := do
  let token ← currentToken
  let lo := token.span.lo
  match token.lexeme with
  | .word name _ => wordType r token name
  | .string value =>
    advance
    return .literalType token.span (.strLit token.span value)
  | .number _ | .bigNumber _ => numberType lo false
  | _ =>
    if ← takeMark "-" then return ← numberType lo true
    if token.isMark "\x60" then
      let (texts, parts) ← template (r .type)
      let span ← since lo
      return .literalType span (.template span texts parts)
    if token.isMark "\x7b" then
      if (← attempt mappedHead).isSome then return ← mappedTypeFrom r lo
      advance
      let members ← typeMembers r
      return .objectType (← since lo) members
    if ← takeMark "[" then
      let items ← itemsUntil "]" (tupleItem r)
      return .listType (← since lo) items
    if ← takeMark "(" then
      let inner ← r .type
      expectMark ")"
      return .parenthesizedType (← since lo) inner
    failHere .expectedExpression

/-- list brackets and indices after a type, on the same line -/
def postfixType : Parse Node := do
  let lo ← here
  extend (fun type => do
    let token ← currentToken
    if token.onNewLine then return none
    unless ← takeMark "[" do return none
    if ← takeMark "]" then return some (.listType (← since lo) [type])
    let index ← r .type
    expectMark "]"
    return some (.other (← since lo) [type, index])) (← primaryType r)

/-! ## Operators -/

def inferredType (lo : Nat) (conditional : Bool) : Parse Node := do
  let _ ← identifier .expectedName
  let bound ← attempt do
    expectWord "extends"
    let type ← r .unconditionalType
    if conditional && (← isMark "?") then failHere (.expected ")" "?")
    return type
  return .other (← since lo) bound.toList

/-- prefixed words before a type, the last one first -/
def typeOperator? : Parse (Option Nat) := do
  let token ← currentToken
  if token.isWord "keyof" || token.isWord "unique" || token.isWord "readonly" then
    advance
    return some token.span.lo
  return none

def operatorType (conditional : Bool) : Parse Node := do
  let starts ← many typeOperator?
  let lo ← here
  let inner ← if ← takeWord "infer" then inferredType r lo conditional else postfixType r
  let hi := (← get).previous.hi
  return starts.foldr (fun start type => .modifiedType ⟨start, hi⟩ type) inner

/-- types joined by a mark, which may also stand before the first; a single type stands for itself -/
def joinedTypes (mark : String) (build : Span → List Node → Node) (item : Parse Node) : Parse Node := do
  let lo ← here
  let _ ← takeMark mark
  let first ← item
  let others ← many (afterMark mark item)
  if others.isEmpty then return first
  return build (← since lo) (first :: others)

def functionType? : Parse (Option Node) := do
  let token ← currentToken
  let lo := token.span.lo
  if token.isWord "abstract" && (← nextToken).isWord "new" then
    advance
    advance
    return some (← functionTypeFrom r lo)
  if token.isWord "new" then
    advance
    return some (← functionTypeFrom r lo)
  if token.isMark "<" then return some (← functionTypeFrom r lo)
  if token.isMark "(" then return ← attempt (functionTypeFrom r lo)
  return none

/-- a type that is no condition; `conditional` tells whether a condition could stand in its place -/
def unconditionalType (conditional : Bool) : Parse Node := do
  if let some type ← functionType? r then return type
  joinedTypes "|" .unionType (joinedTypes "&" .intersectionType (operatorType r conditional))

/-- a type -/
def type : Parse Node := do
  let lo ← here
  let checked ← unconditionalType r true
  let token ← currentToken
  unless token.isWord "extends" && !token.onNewLine do return checked
  advance
  let bound ← r .unconditionalType
  expectMark "?"
  let yes ← r .type
  expectMark ":"
  let no ← r .type
  return .other (← since lo) [checked, bound, yes, no]

end TsxWorkbench.Syntax
