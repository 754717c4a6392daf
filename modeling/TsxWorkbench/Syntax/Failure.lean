/-
Why a text is no module. A failure has the byte at which reading stopped and its cause; `Cause.message` is the wording.
-/
import TsxWorkbench.Text.Position

namespace TsxWorkbench.Syntax

open Text

inductive Cause where
  /-- the text ends inside a construct -/
  | endOfInput
  /-- something inside a JSX element is amiss; the token is the element's name -/
  | jsxName (token : String)
  /-- one token was needed and another was found -/
  | expected (wanted found : String)
  | expectedSeparator
  | expectedExpression
  | expectedBinding (found : String)
  | expectedName
  | expectedMeta (found : String)
  | unterminatedRegExp
  | badEscape
  | unterminatedComment
  | nameAfterNumber
  | strayCharacter (c : Char)
  /-- the grammar was nested deeper than the length of the text allows -/
  | nestedTooDeep
deriving DecidableEq, Repr, Inhabited

def Cause.message : Cause → String
  | .endOfInput => "Unexpected eof"
  | .jsxName token => "Unexpected token \x60" ++ token ++ "\x60. Expected jsx identifier"
  | .expected wanted found => "Expected '" ++ wanted ++ "', got '" ++ found ++ "'"
  | .expectedSeparator => "Expected ';', '\x7d' or <eof>"
  | .expectedExpression => "Expression expected"
  | .expectedBinding found =>
    "Unexpected token \x60" ++ found ++ "\x60. Expected yield, an identifier, [ or \x7b"
  | .expectedName => "Expected ident"
  | .expectedMeta found => "Unexpected token \x60" ++ found ++ "\x60. Expected meta"
  | .unterminatedRegExp => "Unterminated regexp literal"
  | .badEscape => "Bad character escape sequence"
  | .unterminatedComment => "Unterminated block comment"
  | .nameAfterNumber => "Identifier cannot follow number"
  | .strayCharacter c => "Unexpected character '" ++ String.singleton c ++ "'"
  | .nestedTooDeep => "Nesting is too deep"

/-- a cause and the byte at which it was met -/
structure Failure where
  offset : Nat
  cause : Cause
deriving DecidableEq, Repr, Inhabited

/-- wording of a failure in a text, with its line and column -/
def Failure.message (source : List Char) (f : Failure) : String :=
  let p := position source f.offset
  f.cause.message ++ " at " ++ toString p.line ++ ":" ++ toString p.column

end TsxWorkbench.Syntax
