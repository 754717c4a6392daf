/-
Lines of a text. `splitLines` cuts at every line feed and never gives an empty list; `textLines` reads a text as a
list of lines, where the last line feed ends the last line and a carriage return before a line feed belongs to it.
-/
import TsxWorkbench.Text.Blank

namespace TsxWorkbench.Text

/-- pieces between line feeds; a text with n line feeds has n + 1 of them -/
def splitLines : List Char → List (List Char)
  | [] => [[]]
  | '\n' :: cs => [] :: splitLines cs
  | c :: cs =>
    match splitLines cs with
    | [] => [[c]]
    | line :: rest => (c :: line) :: rest

theorem splitLines_ne_nil (cs : List Char) : splitLines cs ≠ [] := by
  fun_cases splitLines cs <;> simp_all

/-- pieces joined by line feeds -/
def joinLines (ls : List (List Char)) : List Char := List.intercalate ['\n'] ls

/-- a line without the carriage return that ends it -/
def dropReturn (line : List Char) : List Char :=
  match line.reverse with
  | '\r' :: rest => rest.reverse
  | _ => line

def endedLines : List (List Char) → List (List Char)
  | [] => []
  | [last] => if last.isEmpty then [] else [last]
  | line :: rest => dropReturn line :: endedLines rest

/-- lines of a text: each line feed, with a carriage return before it, ends one; a text that ends in one has no empty
line after it -/
def textLines (cs : List Char) : List (List Char) := endedLines (splitLines cs)

end TsxWorkbench.Text
