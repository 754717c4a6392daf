/-
Reading a module. `readGoal` ties the grammar's parts together: each part gets the reader of goals one level further
down. A token takes part in at most sixteen levels, so a depth taken from the length of the text is never used up.
-/
import TsxWorkbench.Syntax.Grammar.Expression
import TsxWorkbench.Syntax.Grammar.Statement

namespace TsxWorkbench.Syntax

open Text

/-- the reader of a goal to a depth -/
def readGoal : Nat → Goal → Parse Node
  | 0, _ => do throw ⟨← here, .nestedTooDeep⟩
  | depth + 1, goal =>
    let r := readGoal depth
    match goal with
    | .type => type r
    | .unconditionalType => unconditionalType r false
    | .target => target r
    | .block => block r
    | .element => element r
    | .expression allowIn => expression r allowIn
    | .assignment allowIn beforeColon => assignment r allowIn beforeColon
    | .binary above allowIn => binary r above allowIn
    | .unary => unary r
    | .statement topLevel => statement r topLevel

/-- the text after a first line that names an interpreter -/
def passInterpreterLine (t : Tail) : Tail :=
  match t.chars with
  | '#' :: '!' :: cs => t.drop ((cs.takeWhile fun c => !isLineEnd c).length + 2)
  | _ => t

/-- reading at the start of a text -/
def Reading.start (source : List Char) : Reading :=
  let step := scan (passInterpreterLine ⟨source, 0⟩)
  ⟨step.head, step.token, step.tail, ⟨0, 0⟩, source.length + 1⟩

/-- levels of goals that a text of n characters may need -/
def depthFor (n : Nat) : Nat := 16 * n + 64

def moduleItems (r : Goal → Parse Node) : Parse (List Node) :=
  many do
    if (← currentToken).isFinish then return none
    return some (← r (.statement true))

/-- the module that a text is -/
def parseModule (source : List Char) : Except Failure Module :=
  match moduleItems (readGoal (depthFor source.length)) (Reading.start source) with
  | .ok (items, _) => .ok ⟨items⟩
  | .error failure => .error failure

end TsxWorkbench.Syntax
