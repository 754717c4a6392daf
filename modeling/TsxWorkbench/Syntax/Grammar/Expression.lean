/-
Expressions: literals, JSX, member accesses and calls, operators by precedence, conditions, assignments and arrow
functions. What may be the head of an arrow function or a list of type arguments is read as one first, and read again
as something else if that fails.
-/
import TsxWorkbench.Syntax.Grammar.Function
import TsxWorkbench.Syntax.Grammar.Jsx

namespace TsxWorkbench.Syntax

open Text

variable (r : Goal → Parse Node)

/-! ## Literals -/

/-- number of characters up to and with the slash that ends a regular expression; a slash inside brackets is text -/
def regExpLength? (inClass : Bool) : List Char → Option Nat
  | '\\' :: c :: cs => if isLineEnd c then none else (regExpLength? inClass cs).map (· + 2)
  | c :: cs =>
    if isLineEnd c then none
    else if c = '/' && !inClass then some 1
    else (regExpLength? (c = '[' || (inClass && c ≠ ']')) cs).map (· + 1)
  | [] => none

/-- a regular expression from the slash on that is the current token -/
def regExp : Parse Node := do
  let head := (← get).head
  match regExpLength? false (head.chars.drop 1) with
  | none => throw ⟨head.offset, .unterminatedRegExp⟩
  | some n =>
    let afterSlash := head.drop (n + 1)
    let flags := afterSlash.chars.takeWhile isNamePart
    resume (afterSlash.drop flags.length)
    return .other (← since head.offset) []

def arrayItem : Parse Node := do
  let lo ← here
  if ← isMark "," then return .hole ⟨lo, lo⟩
  if ← takeMark "..." then
    let inner ← r (.assignment true false)
    return .spread (← since lo) inner
  r (.assignment true false)

def templateLiteral : Parse Node := do
  let lo ← here
  let (texts, parts) ← template (r (.expression true))
  return .template (← since lo) texts parts

/-! ## Primary expressions -/

/-- `new` with what it builds: members and indices, then type arguments and arguments -/
def constructFrom (lo : Nat) (primary : Parse Node) : Parse Node := do
  expectWord "new"
  if ← takeMark "." then
    let _ ← anyWord
    return .other (← since lo) []
  let calleeLo ← here
  let first ← if ← isWord "new" then r .unary else primary
  let callee ← extend (fun base => do
    if ← takeMark "." then
      let key ← propertyKey r
      return some (.member (← since calleeLo) base key)
    if ← takeMark "[" then
      let index ← r (.expression true)
      expectMark "]"
      return some (.member (← since calleeLo) base (.computed (← since calleeLo) index))
    let token ← currentToken
    if token.isMark "!" && !token.onNewLine then
      advance
      return some (.wrapped (← since calleeLo) .nonNull base [])
    return none) first
  let types ← given ((← isMark "<") || (← isMark "<<")) (attempt (typeArguments r))
  let args ← afterMark "(" (callArguments r)
  return .construct (← since lo) callee (args.getD []) (types.join.getD [])

/-- words that may stand after a dot in a dynamic import -/
def importPhases : List String := ["defer", "source"]

/-- what is known of the module itself, or a dynamic import -/
def importExpression (lo : Nat) : Parse Node := do
  expectWord "import"
  if ← takeMark "." then
    let (name, _) ← anyWord
    if name = "meta" then return .other (← since lo) []
    unless importPhases.contains name do failHere (.expectedMeta (← currentToken).lexeme.text)
  expectMark "("
  let args ← callArguments r
  return .importCall (← since lo) args

/-- an expression that starts with a word and is no function -/
def plainWordExpression (token : Token) (name : String) (primary : Parse Node) : Parse Node := do
  let lo := token.span.lo
  if token.isWord "class" then return ← classFrom r lo []
  if token.isWord "new" then return ← constructFrom r lo primary
  if token.isWord "import" then return ← importExpression r lo
  if token.isWord "this" || token.isWord "super" then
    advance
    return .other token.span []
  if token.isWord "null" then
    advance
    return .nullLit token.span
  if token.isWord "true" || token.isWord "false" then
    advance
    return .boolLit token.span (name == "true")
  if token.identifier?.isNone then failHere .expectedExpression
  advance
  return .ident token.span name

def wordExpression (token : Token) (name : String) (primary : Parse Node) : Parse Node := do
  let lo := token.span.lo
  if token.isWord "function" then return (← functionAfterWord r lo).2
  if token.isWord "async" then
    let next ← nextToken
    if next.isWord "function" && !next.onNewLine then
      advance
      return (← functionAfterWord r lo).2
  plainWordExpression r token name primary

/-- an element as an expression, which another tag may not follow -/
def elementExpression : Parse Node := do
  let node ← r .element
  advance
  if ← isMark "<" then failHere (.expected "," "<")
  return node

def markExpression (token : Token) (text : String) : Parse Node := do
  let lo := token.span.lo
  match text with
  | "(" =>
    advance
    let inner ← r (.expression true)
    expectMark ")"
    return .wrapped (← since lo) .parentheses inner []
  | "[" =>
    advance
    let items ← itemsUntil "]" (arrayItem r)
    return .array (← since lo) items
  | "\x7b" => objectLiteral r
  | "\x60" => templateLiteral r
  | "/" | "/=" => regExp
  | "<" | "<<" => elementExpression r
  | "@" => do
    let marks ← decorators r
    classFrom r lo marks
  | _ => failHere .expectedExpression

/-- an expression without operators. The first reader stands for what follows `new` -/
def primaryWith (primary : Parse Node) : Parse Node := do
  let token ← currentToken
  match token.lexeme with
  | .number value =>
    advance
    return .numLit token.span value
  | .string value =>
    advance
    return .strLit token.span value
  | .bigNumber _ | .privateName _ =>
    advance
    return .other token.span []
  | .word name _ => wordExpression r token name primary
  | .mark text => markExpression r token text
  | _ => failHere .expectedExpression

def primary : Parse Node := primaryWith r (primaryWith r (r .unary))

/-! ## Members and calls -/

/-- marks that start an expression or compare -/
def operandMarks : List String :=
  ["(", "[", "\x7b", "\x60", "<", ">", "+", "-", "++", "--", "!", "~", "/", "/=", "@", "<<"]

/-- words that start no expression -/
def followingWords : List String :=
  ["in", "instanceof", "as", "satisfies", "of", "case", "default", "else", "extends", "finally", "catch", "const",
   "enum", "export", "throw", "return", "var", "while", "with", "for", "if", "switch", "try", "do", "break",
   "continue", "debugger"]

/-- whether a token may follow an expression that ends with type arguments -/
def endsInstantiation (t : Token) : Bool :=
  t.onNewLine || match t.lexeme with
  | .finish => true
  | .mark m => !operandMarks.contains m
  | .word name _ => followingWords.contains name
  | _ => false

/-- also on a new line, type arguments are not followed by a comparison or a sign -/
def endsInstantiationOnNewLine (t : Token) : Bool :=
  !(t.isMark "<" || t.isMark ">" || t.isMark "+" || t.isMark "-" || t.isMark "<<")

/-- type arguments after an expression, if they can be nothing else -/
def callTypeArguments? : Parse (Option (List Node)) :=
  attempt do
    let types ← typeArguments r
    let token ← currentToken
    unless token.isMark "(" || token.isMark "\x60" || (endsInstantiation token && endsInstantiationOnNewLine token) do
      failHere (.expected "(" token.lexeme.text)
    return types

/-- an expression with the accesses and calls read so far; `optional` once a question mark made the chain one that may
end early, which is neither a plain access nor a plain call -/
structure Chain where
  node : Node
  optional : Bool

def Chain.access (c : Chain) (span : Span) (property : Node) : Chain :=
  if c.optional then ⟨.other span [c.node, property], true⟩ else ⟨.member span c.node property, false⟩

def Chain.call (c : Chain) (span : Span) (args types : List Node) : Chain :=
  if c.optional then ⟨.other span (c.node :: (args ++ types)), true⟩ else ⟨.call span c.node args types, false⟩

def memberName : Parse Node := do
  let token ← currentToken
  match token.lexeme with
  | .word name _ =>
    advance
    return .ident token.span name
  | .privateName _ =>
    advance
    return .other token.span []
  | _ => failHere .expectedName

def indexFrom (lo : Nat) : Parse Node := do
  expectMark "["
  let index ← r (.expression true)
  expectMark "]"
  return .computed (← since lo) index

def taggedTemplate (lo : Nat) (c : Chain) (types : List Node) : Parse Chain := do
  let literal ← templateLiteral r
  return ⟨.other (← since lo) (c.node :: literal :: types), c.optional⟩

def linkAfterTypes (lo : Nat) (c : Chain) (types : List Node) : Parse Chain := do
  if ← takeMark "(" then
    let args ← callArguments r
    return c.call (← since lo) args types
  if ← isMark "\x60" then return ← taggedTemplate r lo c types
  return ⟨.other (← since lo) (c.node :: types), c.optional⟩

/-- the next access or call of a chain -/
def link? (lo : Nat) (c : Chain) : Parse (Option Chain) := do
  let token ← currentToken
  match token.lexeme with
  | .mark "?." =>
    advance
    let opened : Chain := ⟨c.node, true⟩
    if ← isMark "[" then
      let property ← indexFrom r (← here)
      return some (opened.access (← since lo) property)
    if (← isMark "(") || (← isMark "\x60") then return some (← linkAfterTypes r lo opened [])
    if (← isMark "<") || (← isMark "<<") then
      let types ← typeArguments r
      return some (← linkAfterTypes r lo opened types)
    let property ← memberName
    return some (opened.access (← since lo) property)
  | .mark "." =>
    advance
    let property ← memberName
    return some (c.access (← since lo) property)
  | .mark "[" =>
    let property ← indexFrom r token.span.lo
    return some (c.access (← since lo) property)
  | .mark "!" =>
    if token.onNewLine then return none
    advance
    return some ⟨.wrapped (← since lo) .nonNull c.node [], c.optional⟩
  | .mark "(" | .mark "\x60" => return some (← linkAfterTypes r lo c [])
  | .mark "<" | .mark "<<" =>
    match ← callTypeArguments? r with
    | some types => return some (← linkAfterTypes r lo c types)
    | none => return none
  | _ => return none

/-- the word `super` with the property after it, which is no plain access, or before its arguments -/
def superAccess (lo : Nat) : Parse Node := do
  expectWord "super"
  if ← takeMark "." then
    let property ← memberName
    return .other (← since lo) [property]
  if ← isMark "[" then
    let property ← indexFrom r (← here)
    return .other (← since lo) [property]
  return .other (← since lo) []

def accessChain : Parse Node := do
  let lo ← here
  let first ← if ← isWord "super" then superAccess r lo else primary r
  let chain ← extend (link? r lo) ⟨first, false⟩
  return chain.node

/-! ## Operators -/

def prefixMarks : List String := ["+", "-", "~", "!"]

def prefixWords : List String := ["delete", "void", "typeof"]

/-- an expression with the operators before and after it -/
def unary : Parse Node := do
  let token ← currentToken
  let lo := token.span.lo
  match token.lexeme with
  | .mark m =>
    if prefixMarks.contains m then
      advance
      let operand ← r .unary
      return .unary (← since lo) m operand
    if m == "++" || m == "--" then
      advance
      let operand ← r .unary
      return .other (← since lo) [operand]
  | .word name false =>
    if prefixWords.contains name then
      advance
      let operand ← r .unary
      return .unary (← since lo) name operand
    if name == "await" then
      advance
      if [")", "]", ";", ","].any (← currentToken).isMark then return .ident token.span name
      let operand ← r .unary
      return .other (← since lo) [operand]
  | _ => pure ()
  let operand ← accessChain r
  let after ← currentToken
  if (after.isMark "++" || after.isMark "--") && !after.onNewLine then
    advance
    return .other (← since lo) [operand]
  return operand

/-- binary operators by how tightly they bind -/
def operatorLevels : List (List String) :=
  [["??"], ["||"], ["&&"], ["|"], ["^"], ["&"], ["==", "!=", "===", "!=="], ["<", ">", "<=", ">="], ["<<", ">>", ">>>"],
   ["+", "-"], ["*", "/", "%"], ["**"]]

/-- level of the comparing operators, among them those spelled as words -/
def comparisonLevel : Nat := 8

/-- level of an operator; the loosest one has level 1 -/
def operatorLevel? (op : String) : Option Nat := (operatorLevels.findIdx? (·.contains op)).map (· + 1)

/-- text and level of the operator that is the current token -/
def currentOperator? (allowIn : Bool) : Parse (Option (String × Nat)) := do
  let token ← currentToken
  match token.lexeme with
  | .mark m => return (operatorLevel? m).map fun level => (m, level)
  | .word name false =>
    if name == "instanceof" || (name == "in" && allowIn) then return some (name, comparisonLevel)
    if (name == "as" || name == "satisfies") && !token.onNewLine then return some (name, comparisonLevel)
    return none
  | _ => return none

/-- an expression of operators that bind tighter than a level -/
def binary (above : Nat) (allowIn : Bool) : Parse Node := do
  let lo ← here
  extend (fun left => do
    match ← currentOperator? allowIn with
    | none => return none
    | some (op, level) =>
      if level ≤ above then return none
      advance
      if op == "as" && (← isWord "const") then
        advance
        return some (.wrapped (← since lo) .constAssertion left [])
      if op == "as" || op == "satisfies" then
        let type ← r .type
        return some (.wrapped (← since lo) (if op == "as" then .typeAssertion else .satisfies) left [type])
      let right ← r (.binary (if op == "**" then level - 1 else level) allowIn)
      return some (.binary (← since lo) op left right)) (← r .unary)

/-! ## Arrow functions -/

/-- head of an arrow function up to and with its arrow -/
structure ArrowHead where
  params : List Node
  types : List Node
  hasResult : Bool

def arrow : Parse Unit := do
  let token ← currentToken
  if token.onNewLine then failHere (.expected ";" token.lexeme.text)
  expectMark "=>"

def arrowHead : Parse ArrowHead := do
  let types ← typeParameters r
  expectMark "("
  let params ← parameters r
  let result ← resultAnnotation? r
  arrow
  return ⟨params, types ++ result.toList, result.isSome⟩

def arrowBody (lo : Nat) (allowIn : Bool) (head : ArrowHead) : Parse Node := do
  let body ← if ← isMark "\x7b" then r .block else r (.assignment allowIn false)
  return .arrow (← since lo) head.params body head.types

/-- whether the token after an opening parenthesis may start a parameter or end the list of them -/
def mayStartParameter (t : Token) : Bool :=
  t.identifier?.isSome || t.isWord "this" || [")", "...", "\x7b", "[", "@"].any t.isMark

/-- an arrow function whose head starts here with a parenthesis or with type parameters. Before the colon of a
condition, a head with a result type needs that colon after its body -/
def parenthesizedArrow (lo : Nat) (allowIn beforeColon : Bool) : Parse (Except Failure Node) := do
  let start ← get
  match ← tryRead (arrowHead r) with
  | .error failure => return .error failure
  | .ok head =>
    if head.hasResult && beforeColon then
      let whole ← tryRead do
        let node ← arrowBody r lo allowIn head
        unless ← isMark ":" do failHere (.expected ":" (← currentToken).lexeme.text)
        return node
      if let .error _ := whole then set start
      return whole
    else return .ok (← arrowBody r lo allowIn head)

/-- an arrow function with one bare parameter -/
def bareArrow? (lo : Nat) (allowIn : Bool) : Parse (Option Node) := do
  let token ← currentToken
  match token.identifier? with
  | none => return none
  | some name =>
    let next ← nextToken
    unless next.isMark "=>" && !next.onNewLine do return none
    advance
    advance
    return some (← arrowBody r lo allowIn ⟨[.binding token.span name none], [], false⟩)

/-- an arrow function that starts with the word `async` -/
def asyncArrow? (lo : Nat) (allowIn beforeColon : Bool) : Parse (Option Node) := do
  unless ← isWord "async" do return none
  let next ← nextToken
  if next.onNewLine || next.isMark "=>" then return none
  let start ← get
  advance
  if next.isMark "(" || next.isMark "<" then
    if let .ok node ← parenthesizedArrow r lo allowIn beforeColon then return some node
  else if let some node ← bareArrow? r lo allowIn then return some node
  set start
  return none

/-! ## Assignments -/

def assignmentMarks : List String :=
  ["=", "+=", "-=", "*=", "/=", "%=", "**=", "<<=", ">>=", ">>>=", "&=", "|=", "^=", "&&=", "||=", "??="]

/-- conditions and assignments -/
def plainAssignment (lo : Nat) (allowIn : Bool) : Parse Node := do
  let left ← binary r 0 allowIn
  if ← takeMark "?" then
    let yes ← r (.assignment true true)
    expectMark ":"
    let no ← r (.assignment allowIn false)
    return .other (← since lo) [left, yes, no]
  let token ← currentToken
  match token.lexeme with
  | .mark m =>
    if assignmentMarks.contains m then
      advance
      let value ← r (.assignment allowIn false)
      return .assign (← since lo) (if m == "=" then asTarget left else left) value
    return left
  | _ => return left

def yieldExpression (lo : Nat) (allowIn : Bool) : Parse Node := do
  expectWord "yield"
  let starred ← takeMark "*"
  let token ← currentToken
  let ends := token.onNewLine || token.isFinish || token.isWord "in" ||
    [")", "]", "\x7d", ",", ";", ":"].any token.isMark
  if ends && !starred then return .other (← since lo) []
  let inner ← r (.assignment allowIn false)
  return .other (← since lo) [inner]

/-- an expression that starts with an angle bracket: JSX, or else an arrow function with type parameters -/
def bracketAssignment (lo : Nat) (allowIn beforeColon : Bool) : Parse Node := do
  let failure ← elementFailure
  match ← tryRead (plainAssignment r lo allowIn) with
  | .ok node => return node
  | .error _ =>
    match ← parenthesizedArrow r lo allowIn beforeColon with
    | .ok node => return node
    | .error _ => throw failure

/-- an expression without commas -/
def assignment (allowIn beforeColon : Bool) : Parse Node := do
  let token ← currentToken
  let lo := token.span.lo
  if token.isMark "<" then return ← bracketAssignment r lo allowIn beforeColon
  if token.isWord "yield" then return ← yieldExpression r lo allowIn
  if let some node ← asyncArrow? r lo allowIn beforeColon then return node
  if let some node ← bareArrow? r lo allowIn then return node
  if token.isMark "(" && mayStartParameter (← nextToken) then
    match ← parenthesizedArrow r lo allowIn beforeColon with
    | .ok node => return node
    | .error failure =>
      match ← tryRead (plainAssignment r lo allowIn) with
      | .ok node => return node
      | .error other => throw (if failure.cause = .endOfInput then failure else other)
  plainAssignment r lo allowIn

/-- an expression -/
def expression (allowIn : Bool) : Parse Node := do
  let lo ← here
  let first ← r (.assignment allowIn false)
  let others ← many (afterMark "," (r (.assignment allowIn false)))
  if others.isEmpty then return first
  return .other (← since lo) (first :: others)

end TsxWorkbench.Syntax
