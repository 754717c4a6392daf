/-
The state in which a module is read, and the small readers that the grammar is made of. The state holds one token; the
next one is read only when the grammar asks for it, so that texts inside templates, regular expressions and JSX are
never read as tokens. `Goal` names the forms that contain one another: a grammar reads a part through the reader of
goals it is given, which is tied in the module reader.
-/
import TsxWorkbench.Syntax.Lexeme
import TsxWorkbench.Syntax.Node

namespace TsxWorkbench.Syntax

open Text

/-- where reading stands: the current token, the tail that starts with it, the tail after it, where the token before it
lies, and a bound on the number of rounds of any loop -/
structure Reading where
  head : Tail
  token : Token
  tail : Tail
  previous : Span
  limit : Nat
deriving Inhabited

abbrev Parse := StateT Reading (Except Failure)

/-- forms of the grammar that hold parts of other forms -/
inductive Goal where
  | type
  /-- a type in the `extends` part of a conditional type -/
  | unconditionalType
  /-- what a declaration binds: a name or a pattern of names -/
  | target
  | block
  | element
  | expression (allowIn : Bool)
  /-- an expression without commas; one between `?` and `:` leaves the colon to its condition -/
  | assignment (allowIn beforeColon : Bool)
  | binary (above : Nat) (allowIn : Bool)
  | unary
  | statement (topLevel : Bool)
deriving DecidableEq, Repr, Inhabited

/-! ## The current token -/

def currentToken : Parse Token := return (← get).token

/-- the byte at which the current token starts -/
def here : Parse Nat := return (← get).token.span.lo

/-- from a byte to the end of the last token that was read -/
def since (lo : Nat) : Parse Span := return ⟨lo, (← get).previous.hi⟩

/-- reads the token that a tail starts with -/
def resume (t : Tail) : Parse Unit :=
  modify fun s =>
    let step := scan t
    ⟨step.head, step.token, step.tail, ⟨s.token.span.lo, t.offset⟩, s.limit⟩

def advance : Parse Unit :=
  modify fun s =>
    let step := scan s.tail
    ⟨step.head, step.token, step.tail, s.token.span, s.limit⟩

/-- the token after the current one -/
def nextToken : Parse Token := return (scan (← get).tail).token

/-- a failure at the current token; what is no token, and the end of the text, fail in their own way -/
def failHere {α : Type} (cause : Cause) : Parse α := do
  let token ← currentToken
  match token.lexeme with
  | .fault failure => throw failure
  | .finish => throw ⟨token.span.lo, .endOfInput⟩
  | _ => throw ⟨token.span.lo, cause⟩

/-! ## Marks and words -/

def Token.isMark (t : Token) (text : String) : Bool :=
  match t.lexeme with
  | .mark m => m == text
  | _ => false

def Token.isWord (t : Token) (text : String) : Bool :=
  match t.lexeme with
  | .word name false => name == text
  | _ => false

def Token.isFinish (t : Token) : Bool :=
  match t.lexeme with
  | .finish => true
  | _ => false

/-- name of a word -/
def Token.name? (t : Token) : Option String :=
  match t.lexeme with
  | .word name _ => some name
  | _ => none

def isMark (text : String) : Parse Bool := return (← currentToken).isMark text

def isWord (text : String) : Parse Bool := return (← currentToken).isWord text

/-- passes a mark if it is the current token -/
def takeMark (text : String) : Parse Bool := do
  if ← isMark text then
    advance
    return true
  return false

/-- passes a word if it is the current token -/
def takeWord (text : String) : Parse Bool := do
  if ← isWord text then
    advance
    return true
  return false

def expectMark (text : String) : Parse Unit := do
  unless ← takeMark text do
    failHere (.expected text (← currentToken).lexeme.text)

def expectWord (text : String) : Parse Unit := do
  unless ← takeWord text do
    failHere (.expected text (← currentToken).lexeme.text)

/-- reads the first character of a mark as a mark of its own, as in two closing brackets of type arguments -/
def splitMark (first : Char) : Parse Unit :=
  modify fun s =>
    match s.token.lexeme with
    | .mark m =>
      if m.toList.head? = some first ∧ m.length > 1 then
        let tail := s.head.drop 1
        let token := ⟨.mark (String.singleton first), ⟨s.head.offset, tail.offset⟩, s.token.onNewLine⟩
        { s with token := token, tail := tail }
      else s
    | _ => s

/-- a semicolon, which may be left out before a closing brace, at the end of the text and on a new line -/
def endStatement : Parse Unit := do
  unless ← takeMark ";" do
    let token ← currentToken
    unless token.isMark "\x7d" || token.isFinish || token.onNewLine do
      failHere .expectedSeparator

/-! ## Names -/

/-- words that are no names -/
def reservedWords : List String :=
  ["break", "case", "catch", "class", "const", "continue", "debugger", "default", "delete", "do", "else", "enum",
   "export", "extends", "false", "finally", "for", "function", "if", "import", "in", "instanceof", "new", "null",
   "return", "super", "switch", "this", "throw", "true", "try", "typeof", "var", "void", "while", "with"]

/-- name of a word that may be bound; an escaped spelling of a reserved word counts as a name -/
def Token.identifier? (t : Token) : Option String :=
  match t.lexeme with
  | .word name escaped => if !escaped && reservedWords.contains name then none else some name
  | _ => none

/-- a name that may be bound, and its span -/
def identifier (cause : Cause) : Parse (String × Span) := do
  let token ← currentToken
  match token.identifier? with
  | some name =>
    advance
    return (name, token.span)
  | none => failHere cause

/-- any word, reserved or not, and its span -/
def anyWord : Parse (String × Span) := do
  let token ← currentToken
  match token.name? with
  | some name =>
    advance
    return (name, token.span)
  | none => failHere .expectedName

/-- a string literal, and its span -/
def stringLiteral : Parse (String × Span) := do
  let token ← currentToken
  match token.lexeme with
  | .string value =>
    advance
    return (value, token.span)
  | _ => failHere (.expected "string" token.lexeme.text)

/-! ## Choice and repetition -/

/-- reads on if the reader succeeds and otherwise stays where it was -/
def attempt {α : Type} (p : Parse α) : Parse (Option α) := fun s =>
  match p s with
  | .ok (a, t) => .ok (some a, t)
  | .error _ => .ok (none, s)

/-- result of a reader that fails without moving -/
def tryRead {α : Type} (p : Parse α) : Parse (Except Failure α) := fun s =>
  match p s with
  | .ok (a, t) => .ok (.ok a, t)
  | .error e => .ok (.error e, s)

def repeatAtMost {α : Type} : Nat → Parse (Option α) → Parse (List α)
  | 0, _ => do throw ⟨← here, .nestedTooDeep⟩
  | k + 1, p => do
    match ← p with
    | none => return []
    | some a => return a :: (← repeatAtMost k p)

/-- what a reader finds until it finds nothing -/
def many {α : Type} (p : Parse (Option α)) : Parse (List α) := do repeatAtMost (← get).limit p

def extendAtMost {α : Type} : Nat → (α → Parse (Option α)) → α → Parse α
  | 0, _, _ => do throw ⟨← here, .nestedTooDeep⟩
  | k + 1, p, a => do
    match ← p a with
    | none => return a
    | some b => extendAtMost k p b

/-- a value grown by a reader until it finds nothing to add -/
def extend {α : Type} (p : α → Parse (Option α)) (a : α) : Parse α := do extendAtMost (← get).limit p a

/-- what a reader reads, if it is to be read at all -/
def given {α : Type} (condition : Bool) (p : Parse α) : Parse (Option α) := do
  if condition then return some (← p)
  return none

/-- what follows a mark, if that mark comes next -/
def afterMark {α : Type} (text : String) (p : Parse α) : Parse (Option α) := do given (← takeMark text) p

/-- what follows a word, if that word comes next -/
def afterWord {α : Type} (text : String) (p : Parse α) : Parse (Option α) := do given (← takeWord text) p

/-- a comma, unless a closing mark comes next -/
def separator (close : String) : Parse Unit := do
  unless ← isMark close do expectMark ","

/-- items with commas between them, up to and with a closing mark; a comma may follow the last item -/
def itemsUntil {α : Type} (close : String) (item : Parse α) : Parse (List α) :=
  many do
    if ← takeMark close then return none
    let a ← item
    separator close
    return some a

/-- items without separators, up to and with a closing mark -/
def runUntil {α : Type} (close : String) (item : Parse α) : Parse (List α) :=
  many do
    if ← takeMark close then return none
    return some (← item)

/-- statements or members, up to and with the brace that closes their body; a body that is still open where the text
ends is closed there -/
def bodyUntilBrace {α : Type} (item : Parse α) : Parse (List α) :=
  many do
    if (← currentToken).isFinish then return none
    if ← takeMark "\x7d" then return none
    return some (← item)

end TsxWorkbench.Syntax
