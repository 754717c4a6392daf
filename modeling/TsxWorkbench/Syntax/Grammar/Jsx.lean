/-
JSX elements and fragments. Between its tags an element holds raw text, so its reader never reads a token past the mark
that ends a tag or a container: that mark is left as the current token, and whoever asked for the element goes on from
there, in text or in script.
-/
import TsxWorkbench.Syntax.Entity
import TsxWorkbench.Syntax.Grammar.Type

namespace TsxWorkbench.Syntax

open Text

variable (r : Goal → Parse Node)

/-! ## Names -/

/-- a name that may hold dashes, and its span; it holds no escapes -/
def dashedName : Parse (String × Span) := do
  let s ← get
  let name := s.head.chars.takeWhile fun c => isNamePart c || c = '-'
  if s.token.name?.isNone || name.isEmpty then failHere (.expected "jsx identifier" s.token.lexeme.text)
  let tail := s.head.drop name.length
  resume tail
  return (String.ofList name, ⟨s.head.offset, tail.offset⟩)

def tagName : Parse (TagName × Span) := do
  let lo ← here
  let (first, _) ← dashedName
  if ← takeMark ":" then
    let (second, _) ← dashedName
    return (.namespaced first second, ← since lo)
  let path ← extend (fun path => do
    if ← takeMark "." then
      let (name, _) ← anyWord
      return some (path ++ "." ++ name)
    return none) first
  return (if path = first then .plain first else .dotted path, ← since lo)

/-! ## Containers -/

/-- the closing brace of a container, which stays the current token, and the span from the opening one -/
def containerEnd (lo : Nat) : Parse Span := do
  let token ← currentToken
  unless token.isMark "\x7d" do failHere (.expected "\x7d" token.lexeme.text)
  return ⟨lo, token.span.hi⟩

/-- an expression between braces; empty braces and spreads only stand between tags -/
def container (betweenTags : Bool) : Parse Node := do
  let lo ← here
  expectMark "\x7b"
  if betweenTags then
    if ← isMark "\x7d" then return .container (← containerEnd lo) none
    if ← takeMark "..." then
      let inner ← r (.expression true)
      return .other (← containerEnd lo) [inner]
  let inner ← r (.expression true)
  return .container (← containerEnd lo) (some inner)

/-! ## Attributes -/

/-- a quoted value, in which only character references are replaced, or a container, or an element -/
def attributeValue : Parse Node := do
  let tail := (← get).tail.passBlanks
  match tail.chars with
  | quote :: rest =>
    if quote = '\x22' ∨ quote = '\x27' then
      let body := rest.takeWhile (· ≠ quote)
      let after := tail.drop (body.length + 2)
      if body.length = rest.length then throw ⟨after.offset, .endOfInput⟩
      resume after
      return .strLit ⟨tail.offset, after.offset⟩ (String.ofList (decodeEntities body))
    else
      advance
      let value ← if ← isMark "<" then r .element else container r false
      advance
      return value
  | [] => throw ⟨tail.offset, .endOfInput⟩

def attribute? : Parse (Option Node) := do
  let token ← currentToken
  let lo := token.span.lo
  if ← takeMark "\x7b" then
    expectMark "..."
    let inner ← r (.assignment true false)
    expectMark "\x7d"
    return some (.spread (← since lo) inner)
  if token.name?.isNone then return none
  let (first, _) ← dashedName
  let name ← if ← takeMark ":" then do
      let (second, _) ← dashedName
      pure (first ++ ":" ++ second)
    else pure first
  if ← isMark "=" then
    let value ← attributeValue r
    return some (.attr (← since lo) name (some value))
  return some (.attr (← since lo) name none)

/-! ## Children -/

/-- the closing bracket of a tag, which stays the current token; its end -/
def tagEnd : Parse Nat := do
  splitMark '>'
  let token ← currentToken
  unless token.isMark ">" do failHere (.expected ">" token.lexeme.text)
  return token.span.hi

/-- text up to the next bracket or brace, and the container or element that starts there; where a closing tag starts
there, reading stops at its bracket. Children are gathered last first -/
def child? (state : List Node × Bool) : Parse (Option (List Node × Bool)) := do
  if state.2 then return none
  let tail := (← get).tail
  let text := tail.chars.takeWhile fun c => c ≠ '<' && c ≠ '\x7b'
  let after := tail.drop text.length
  let before := if text.isEmpty then state.1 else .text ⟨tail.offset, after.offset⟩ :: state.1
  if after.chars.isEmpty then throw ⟨after.offset, .endOfInput⟩
  resume after
  splitMark '<'
  if ← isMark "\x7b" then return some ((← container r true) :: before, false)
  if (← nextToken).isMark "/" then return some (before, true)
  return some ((← r .element) :: before, false)

/-- children up to a closing tag of the given name, and the span of that tag; a fragment has no name -/
def childrenUntil (name : Option TagName) : Parse (List Node × Span) := do
  let (children, _) ← extend (child? r) ([], false)
  let lo ← here
  expectMark "<"
  expectMark "/"
  splitMark '>'
  let found ← given (!(← isMark ">")) tagName
  let hi ← tagEnd
  if found.map (·.1) ≠ name then failHere (.expected ((name.map TagName.text).getD "") ((found.map (·.1.text)).getD ""))
  return (children.reverse, ⟨lo, hi⟩)

/-- an element or a fragment; its last bracket stays the current token -/
def element : Parse Node := do
  splitMark '<'
  let lo ← here
  expectMark "<"
  splitMark '>'
  if ← isMark ">" then
    let (children, closing) ← childrenUntil r none
    return .fragment ⟨lo, closing.hi⟩ children
  let (name, nameSpan) ← tagName
  let typesLo ← here
  let types ← typeArgumentsIf r ((← isMark "<") || (← isMark "<<"))
  let typeSpan ← given (!types.isEmpty) (since typesLo)
  let attributes ← many (attribute? r)
  if ← takeMark "/" then
    let hi ← tagEnd
    return .element ⟨lo, hi⟩ name ⟨⟨lo, hi⟩, nameSpan, typeSpan⟩ none attributes types []
  let hi ← tagEnd
  let (children, closing) ← childrenUntil r (some name)
  return .element ⟨lo, closing.hi⟩ name ⟨⟨lo, hi⟩, nameSpan, typeSpan⟩ (some closing) attributes types children

/-! ## Failures -/

/-- the failure of an expression that starts with a JSX tag: it names the word after the first bracket. For a fragment
it names what follows the next bracket in its text -/
def elementFailure : Parse Failure := do
  let next ← nextToken
  if next.isMark ">" then
    let tail := (scan (← get).tail).tail
    let text := tail.chars.takeWhile (· ≠ '<')
    let inner := (scan (tail.drop (text.length + 1))).token
    if inner.isFinish then return ⟨inner.span.lo, .endOfInput⟩
    return ⟨inner.span.lo, .jsxName inner.lexeme.text⟩
  if next.isFinish then return ⟨next.span.lo, .endOfInput⟩
  return ⟨next.span.lo, .jsxName next.lexeme.text⟩

end TsxWorkbench.Syntax
