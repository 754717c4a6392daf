/-
Labels of keys: the words of a name, each with a capital letter.
-/
import TsxWorkbench.Text.Blank
import TsxWorkbench.Text.Letters

namespace TsxWorkbench.Analysis

open Text

private def isDigitOrLowercase (c : Char) : Bool := isLowercase c || (48 ≤ c.toNat && c.toNat ≤ 57)

private def endWord (word : List Char) (rest : List (List Char)) : List (List Char) :=
  if word.isEmpty then rest else word.reverse :: rest

/-- words so far; a word being read is kept in reverse, and `low` tells whether its last character is a small letter
or a digit -/
private def keyWordsFrom (word : List Char) (low : Bool) : List Char → List (List Char)
  | [] => endWord word []
  | c :: cs =>
    if c = '_' || c = '-' || isBlank c then endWord word (keyWordsFrom [] false cs)
    else if isUppercase c && low && !word.isEmpty then
      endWord word (keyWordsFrom [c] (isDigitOrLowercase c) cs)
    else keyWordsFrom (c :: word) (isDigitOrLowercase c) cs

/-- words of a key: they end at underscores, dashes, blanks, and before a capital after a small letter or a digit -/
def keyWords (key : List Char) : List (List Char) := keyWordsFrom [] false key

private def capitalized : List Char → List Char
  | [] => []
  | c :: cs => toUppercase c ++ cs

/-- a key as words with capital letters -/
def label (key : List Char) : List Char := [' '].intercalate ((keyWords key).map capitalized)

end TsxWorkbench.Analysis
