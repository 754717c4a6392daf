/-
Names and patterns that a declaration or a parameter binds, keys of objects and patterns, decorators, and lists of
parameters.
-/
import TsxWorkbench.Syntax.Reading

namespace TsxWorkbench.Syntax

open Text

variable (r : Goal → Parse Node)

/-! ## Keys -/

/-- key of a property: a word, a literal, a private name, or an expression in brackets -/
def propertyKey : Parse Node := do
  let token ← currentToken
  match token.lexeme with
  | .word name _ =>
    advance
    return .ident token.span name
  | .string value =>
    advance
    return .strLit token.span value
  | .number value =>
    advance
    return .numLit token.span value
  | .bigNumber _ | .privateName _ =>
    advance
    return .other token.span []
  | _ =>
    if token.isMark "[" then
      advance
      let inner ← r (.expression true)
      expectMark "]"
      return .computed (← since token.span.lo) inner
    failHere (.expected "property name" token.lexeme.text)

/-! ## Types of bindings -/

/-- the type after a colon, if there is one -/
def typeAnnotation? : Parse (Option Node) := afterMark ":" (r .type)

/-- a pattern with the type written after it, up to where that type ends -/
def withType (type : Option Node) (hi : Nat) : Node → Node
  | .binding s name _ => .binding ⟨s.lo, hi⟩ name type
  | .objectPattern s entries _ => .objectPattern ⟨s.lo, hi⟩ entries type
  | .other s parts => .other ⟨s.lo, hi⟩ (parts ++ type.toList)
  | n => n

/-- what a declaration binds, with its type -/
def typedTarget : Parse Node := do
  let target ← r .target
  match ← typeAnnotation? r with
  | some type => return withType (some type) (← get).previous.hi target
  | none => return target

/-- a pattern followed by the value it takes when there is none -/
def withInitial (lo : Nat) (target : Node) : Parse Node := do
  if ← takeMark "=" then
    let initial ← r (.assignment true false)
    return .withDefault (← since lo) target initial
  return target

/-! ## Patterns -/

def arrayPatternItem : Parse Node := do
  let lo ← here
  if ← isMark "," then return .hole ⟨lo, lo⟩
  if ← takeMark "..." then
    let rest ← r .target
    return .other (← since lo) [rest]
  withInitial r lo (← r .target)

def objectPatternEntry : Parse Node := do
  let lo ← here
  if ← takeMark "..." then
    let rest ← r .target
    return .other (← since lo) [rest]
  let start ← currentToken
  let key ← propertyKey r
  if ← takeMark ":" then
    let targetLo ← here
    let value ← withInitial r targetLo (← r .target)
    return .keyValue (← since lo) key value
  match start.identifier? with
  | none => failHere (.expected ":" (← currentToken).lexeme.text)
  | some name =>
    if ← takeMark "=" then
      let initial ← r (.assignment true false)
      return .shorthandPattern (← since lo) name (some initial)
    return .shorthandPattern (← since lo) name none

/-- a name, a list pattern or an object pattern -/
def target : Parse Node := do
  let lo ← here
  if ← takeMark "[" then
    let items ← itemsUntil "]" (arrayPatternItem r)
    return .other (← since lo) items
  if ← takeMark "\x7b" then
    let entries ← itemsUntil "\x7d" (objectPatternEntry r)
    return .objectPattern (← since lo) entries none
  let (name, span) ← identifier (.expectedBinding (← currentToken).lexeme.text)
  return .binding span name none

/-- an expression that turned out to be assigned to, read as a pattern: what is assigned inside it is a default -/
def asTarget : Node → Node
  | .array s elements => .other s (elements.attach.map fun e => asTarget e.1)
  | .object s entries => .other s (entries.attach.map fun e => asTarget e.1)
  | .keyValue s key value => .keyValue s key (asTarget value)
  | .spread s inner => .other s [asTarget inner]
  | .assign s target value => .withDefault s target value
  | n => n
termination_by n => sizeOf n
decreasing_by
  all_goals simp_wf
  all_goals first
    | omega
    | (have h := List.sizeOf_lt_of_mem e.2
       omega)

/-! ## Decorators -/

/-- names joined by dots, after the first one -/
def dottedFrom (lo : Nat) (first : Node) : Parse Node :=
  extend (fun base => do
    if ← takeMark "." then
      let (name, span) ← anyWord
      return some (.member (← since lo) base (.ident span name))
    return none) first

/-- arguments of a call, after the opening parenthesis -/
def callArguments : Parse (List Node) :=
  itemsUntil ")" do
    let lo ← here
    if ← takeMark "..." then
      let inner ← r (.assignment true false)
      return .spread (← since lo) inner
    r (.assignment true false)

def decorator? : Parse (Option Node) := do
  unless ← takeMark "@" do return none
  let lo ← here
  if ← takeMark "(" then
    let inner ← r (.expression true)
    expectMark ")"
    return some (.wrapped (← since lo) .parentheses inner [])
  let (name, span) ← identifier .expectedName
  let callee ← dottedFrom lo (.ident span name)
  if ← takeMark "(" then
    let args ← callArguments r
    return some (.call (← since lo) callee args [])
  return some callee

/-- decorators before a class, a member or a parameter -/
def decorators : Parse (List Node) := many (decorator? r)

/-! ## Parameters -/

/-- words that turn a parameter of a constructor into a member -/
def parameterModifiers : List String := ["public", "private", "protected", "readonly", "override"]

def startsTarget (t : Token) : Bool := t.name?.isSome || t.isMark "\x7b" || t.isMark "["

def parameterModifier? : Parse (Option Unit) := do
  let token ← currentToken
  match token.lexeme with
  | .word name false =>
    if parameterModifiers.contains name && startsTarget (← nextToken) then
      advance
      return some ()
    return none
  | _ => return none

def parameterTarget : Parse Node := do
  let token ← currentToken
  if token.isWord "this" then
    advance
    return .binding token.span "this" none
  r .target

/-- one parameter with its decorators, its type and its default; a rest parameter binds no name of its own -/
def parameter : Parse Node := do
  let lo ← here
  let marks ← decorators r
  let _ ← many parameterModifier?
  let patternLo ← here
  let pattern ← if ← takeMark "..." then
      let rest ← r .target
      let type ← typeAnnotation? r
      pure (.other (← since patternLo) (rest :: type.toList))
    else do
      let inner ← parameterTarget r
      let _ ← takeMark "?"
      let type ← typeAnnotation? r
      let hi := (← get).previous.hi
      withInitial r patternLo (if type.isSome then withType type hi inner else inner)
  if marks.isEmpty then return pattern
  return .other (← since lo) (marks ++ [pattern])

/-- parameters after the opening parenthesis, up to and with the closing one. Where the text ends among them, the
closing parenthesis is what was expected, at the last token -/
def parameters : Parse (List Node) :=
  itemsUntil ")" do
    if (← currentToken).isFinish then throw ⟨(← get).previous.lo, .expected ")" "<eof>"⟩
    parameter r

end TsxWorkbench.Syntax
