/-
Marker lines. A line comment `// @snippet-file NAME` opens a virtual file, `// @snippet-file-end` with or without a
remark ends it, and `@import NAME`, commented out or not, quoted or not, asks for the text of one.
-/
import TsxWorkbench.Text.Blank
import TsxWorkbench.Text.Pieces

namespace TsxWorkbench.Files

open Text

/-- the text after two slashes and blanks around them -/
def afterSlashes? (line : List Char) : Option (List Char) :=
  (stripStart? "//".toList (trimStart line)).map trimStart

/-- name of the virtual file that a line opens -/
def opened? (line : List Char) : Option String :=
  match (afterSlashes? line).bind (stripStart? "@snippet-file".toList) with
  | some (c :: rest) =>
    let name := trim (c :: rest)
    if isBlank c && !name.isEmpty then some (String.ofList name) else none
  | _ => none

/-- a line that ends a virtual file -/
def isEnd (line : List Char) : Bool :=
  match (afterSlashes? line).bind (stripStart? "@snippet-file-end".toList) with
  | some [] => true
  | some (c :: _) => isBlank c
  | none => false

/-- a character that a name in an import line may hold -/
def isNameChar (c : Char) : Bool := !isBlank c && c != '\x22' && c != '\'' && c != ';'

/-- a text without the quote that it starts with -/
def dropQuote : List Char → List Char
  | c :: cs => if c = '\x22' ∨ c = '\'' then cs else c :: cs
  | [] => []

/-- a text without the semicolon that it starts with -/
def dropSemicolon : List Char → List Char
  | ';' :: cs => cs
  | cs => cs

/-- name that an import line asks for -/
def importTarget? (line : List Char) : Option (List Char) :=
  let body := (afterSlashes? line).getD (trimStart line)
  match stripStart? "@import".toList body with
  | some (c :: rest) =>
    if isBlank c then
      let start := dropQuote (trimStart rest)
      let name := start.takeWhile isNameChar
      let tail := dropSemicolon (trimStart (dropQuote (start.dropWhile isNameChar)))
      if !name.isEmpty && tail.all isBlank then some name else none
    else none
  | _ => none

end TsxWorkbench.Files
