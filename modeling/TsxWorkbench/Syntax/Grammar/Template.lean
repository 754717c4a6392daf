/-
Template literals: the texts between backquotes, and the parts in braces after a dollar sign.
-/
import TsxWorkbench.Syntax.Reading

namespace TsxWorkbench.Syntax

/-- a stretch of template text: its value unless an escape in it is none, the number of characters up to and with the
mark that ends it, and whether that mark opens a part -/
structure Stretch where
  value : Option (List Char)
  count : Nat
  opensPart : Bool

def Stretch.cons (cs : List Char) (s : Stretch) : Stretch :=
  ⟨s.value.map (cs ++ ·), s.count + 1, s.opensPart⟩

/-- the stretch at the start of a text; the first number says how many characters of an escape remain to be passed.
Every line end in the value is a line feed -/
def stretch? : Nat → List Char → Option Stretch
  | _, [] => none
  | k + 1, _ :: cs => (stretch? k cs).map (·.cons [])
  | 0, '$' :: '\x7b' :: _ => some ⟨some [], 2, true⟩
  | 0, '\r' :: '\n' :: cs => (stretch? 0 cs).map fun s => (s.cons ['\n']).cons []
  | 0, c :: cs =>
    if c = '\x60' then some ⟨some [], 1, false⟩
    else if c = '\\' then
      match escape? cs with
      | some (value, used) => (stretch? used cs).map (·.cons value)
      | none => (stretch? (min 1 cs.length) cs).map fun s => ⟨none, s.count + 1, s.opensPart⟩
    else if c = '\r' then (stretch? 0 cs).map (·.cons ['\n'])
    else (stretch? 0 cs).map (·.cons [c])

/-- one stretch of text and the part after it; the current token is the mark before the stretch -/
def templatePiece (part : Parse Node) : Parse (String × Option Node) := do
  let tail := (← get).tail
  match stretch? 0 tail.chars with
  | none => throw ⟨(tail.drop tail.chars.length).offset, .endOfInput⟩
  | some s =>
    let text := s.value.getD (tail.chars.take (s.count - (if s.opensPart then 2 else 1)))
    resume (tail.drop s.count)
    if s.opensPart then
      let node ← part
      unless ← isMark "\x7d" do failHere (.expected "\x7d" (← currentToken).lexeme.text)
      return (String.ofList text, some node)
    return (String.ofList text, none)

/-- texts and parts of the template whose opening backquote is the current token -/
def template (part : Parse Node) : Parse (List String × List Node) := do
  let first ← templatePiece part
  let pieces ← extend (fun (pieces : List (String × Option Node)) => do
    match pieces with
    | (_, some _) :: _ => return some ((← templatePiece part) :: pieces)
    | _ => return none) [first]
  return (pieces.reverse.map (·.1), pieces.reverse.filterMap (·.2))

end TsxWorkbench.Syntax
