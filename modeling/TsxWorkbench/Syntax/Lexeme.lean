/-
Tokens of script text. `scan` reads one token after the blanks and comments before it. A slash is read as a division
sign, a backquote and a closing brace as marks of their own; the grammar reads regular expressions, template texts and
JSX texts anew from where such a mark stands, because only it knows which of them may come. What is no token is read as
a `fault`, which fails only when the grammar comes to it.
-/
import TsxWorkbench.Number.Reader
import TsxWorkbench.Syntax.Character
import TsxWorkbench.Syntax.Failure

namespace TsxWorkbench.Syntax

open Text Number

/-! ## Places in a text -/

/-- the rest of a text and the byte at which it begins -/
structure Tail where
  chars : List Char
  offset : Nat
deriving Inhabited

/-- the tail without its first n characters -/
def Tail.drop (t : Tail) (n : Nat) : Tail := ⟨t.chars.drop n, t.offset + byteLen (t.chars.take n)⟩

/-! ## Lexemes -/

inductive Lexeme where
  /-- name or keyword; one spelled with an escape is never a keyword -/
  | word (name : String) (escaped : Bool)
  | privateName (name : String)
  | number (value : Binary64)
  | bigNumber (digits : String)
  | string (value : String)
  | mark (text : String)
  | finish
  | fault (failure : Failure)
deriving Inhabited

/-- a lexeme with its place; `onNewLine` tells whether a line ended before it -/
structure Token where
  lexeme : Lexeme
  span : Span
  onNewLine : Bool
deriving Inhabited

/-- how a failure names a lexeme -/
def Lexeme.text : Lexeme → String
  | .word name _ => name
  | .privateName name => "#" ++ name
  | .number x => String.ofList x.scriptText
  | .bigNumber digits => digits ++ "n"
  | .string value => value
  | .mark text => text
  | .finish => "<eof>"
  | .fault _ => "<error>"

/-! ## Blanks and comments -/

/-- what is being passed between two tokens; a block comment knows where it starts -/
inductive GapPart where
  | blanks
  | lineComment
  | blockComment (start : Nat)

/-- what lies between two tokens: the tail after it, whether a line ended in it, and where a block comment without an
end starts -/
structure Gap where
  tail : Tail
  newline : Bool
  unclosed : Option Nat

/-- the gap before a token; a comment to the end of the line starts with `//` or `<!--` -/
def passGap : GapPart → Nat → Bool → List Char → Gap
  | .blockComment start, offset, newline, [] => ⟨⟨[], offset⟩, newline, some start⟩
  | _, offset, newline, [] => ⟨⟨[], offset⟩, newline, none⟩
  | .blanks, offset, newline, '/' :: '/' :: cs => passGap .lineComment (offset + 2) newline cs
  | .blanks, offset, newline, '/' :: '*' :: cs => passGap (.blockComment offset) (offset + 2) newline cs
  | .blanks, offset, newline, '<' :: '!' :: '-' :: '-' :: cs => passGap .lineComment (offset + 4) newline cs
  | .blockComment _, offset, newline, '*' :: '/' :: cs => passGap .blanks (offset + 2) newline cs
  | .blanks, offset, newline, c :: cs =>
    if isGap c then passGap .blanks (offset + c.utf8Size) (newline || isLineEnd c) cs
    else ⟨⟨c :: cs, offset⟩, newline, none⟩
  | .lineComment, offset, newline, c :: cs =>
    passGap (if isLineEnd c then .blanks else .lineComment) (offset + c.utf8Size) (newline || isLineEnd c) cs
  | .blockComment start, offset, newline, c :: cs =>
    passGap (.blockComment start) (offset + c.utf8Size) (newline || isLineEnd c) cs

/-- the tail after its leading blanks and comments -/
def Tail.passBlanks (t : Tail) : Tail := (passGap .blanks t.offset false t.chars).tail

/-! ## Escapes -/

/-- what a backslash and the characters after it stand for, and how many characters were read -/
def codeEscape? (cs : List Char) : Option (Nat × Nat) :=
  match cs with
  | 'x' :: a :: b :: _ => (natural? 16 [a, b]).map fun n => (n, 3)
  | 'u' :: '\x7b' :: rest =>
    let digits := rest.takeWhile isHexDigit
    match rest.drop digits.length with
    | '\x7d' :: _ => (natural? 16 digits).bind fun n => if n ≤ 0x10FFFF then some (n, digits.length + 3) else none
    | _ => none
  | 'u' :: a :: b :: c :: d :: _ => (natural? 16 [a, b, c, d]).map fun n => (n, 5)
  | _ => none

/-- a low surrogate written as an escape, backslash included -/
def lowSurrogate? (cs : List Char) : Option Nat :=
  match cs with
  | '\\' :: 'u' :: a :: b :: c :: d :: _ =>
    (natural? 16 [a, b, c, d]).bind fun n => if 0xDC00 ≤ n ∧ n ≤ 0xDFFF then some n else none
  | _ => none

def isOctalDigit (c : Char) : Bool := 48 ≤ c.toNat && c.toNat ≤ 55

/-- octal digits after a backslash: at most three, at most 255 -/
def octalDigits (cs : List Char) : List Char :=
  let digits := (cs.take 3).takeWhile isOctalDigit
  match digits with
  | [a, _, _] => if a.toNat ≤ 51 then digits else digits.take 2
  | _ => digits

/-- text of a code unit; a surrogate without its partner keeps the form of its escape -/
def unitText (n : Nat) : List Char :=
  if n.isValidChar then [Char.ofNat n] else '\\' :: 'u' :: Nat.toDigits 16 n

/-- what the text after a backslash stands for, and how many characters of it were read -/
def escape? (cs : List Char) : Option (List Char × Nat) :=
  match cs with
  | [] => none
  | '\r' :: '\n' :: _ => some ([], 2)
  | c :: rest =>
    if isLineEnd c then some ([], 1)
    else if c = 'n' then some (['\n'], 1)
    else if c = 't' then some (['\t'], 1)
    else if c = 'r' then some (['\r'], 1)
    else if c = 'b' then some (['\x08'], 1)
    else if c = 'v' then some (['\x0b'], 1)
    else if c = 'f' then some (['\x0c'], 1)
    else if c = 'x' ∨ c = 'u' then
      match codeEscape? cs with
      | none => none
      | some (n, k) =>
        if 0xD800 ≤ n ∧ n ≤ 0xDBFF then
          match lowSurrogate? (cs.drop k) with
          | some low => some ([Char.ofNat (0x10000 + (n - 0xD800) * 0x400 + (low - 0xDC00))], k + 6)
          | none => some (unitText n, k)
        else some (unitText n, k)
    else if isOctalDigit c then
      let digits := octalDigits cs
      (natural? 8 digits).map fun n => (unitText n, digits.length)
    else
      let _ := rest
      some ([c], 1)

/-! ## Words -/

/-- the part of a name that an escape stands for, and the number of characters after its backslash -/
def escapedNamePart? (cs : List Char) : Option (Char × Nat) :=
  match cs with
  | 'u' :: _ =>
    match codeEscape? cs with
    | some (n, used) => if n.isValidChar ∧ isNamePart (Char.ofNat n) then some (Char.ofNat n, used) else none
    | none => none
  | _ => none

/-- characters of a name, the number of characters it takes, and whether an escape was met; the count says how many
characters of an escape remain to be passed -/
def nameFrom : Nat → List Char → List Char × Nat × Bool
  | _, [] => ([], 0, false)
  | k + 1, _ :: cs =>
    let (name, count, escaped) := nameFrom k cs
    (name, count + 1, escaped)
  | 0, c :: cs =>
    if isNamePart c then
      let (name, count, escaped) := nameFrom 0 cs
      (c :: name, count + 1, escaped)
    else if c = '\\' then
      match escapedNamePart? cs with
      | some (d, used) =>
        let (name, count, _) := nameFrom used cs
        (d :: name, count + 1, true)
      | none => ([], 0, false)
    else ([], 0, false)

/-- the name at the start of a text, the number of characters it takes, and whether it has an escape -/
def name? (cs : List Char) : Option (List Char × Nat × Bool) :=
  match nameFrom 0 cs with
  | ([], _, _) => none
  | (c :: name, count, escaped) => if isNameStart c then some (c :: name, count, escaped) else none

/-! ## Strings -/

/-- value of a string literal and the number of characters up to and including its closing quote; a literal that is
not closed ends where its line ends. The count says how many characters of an escape remain to be passed -/
def stringFrom (quote : Char) : Nat → List Char → Option (List Char × Nat)
  | _, [] => some ([], 0)
  | k + 1, _ :: cs => (stringFrom quote k cs).map fun r => (r.1, r.2 + 1)
  | 0, c :: cs =>
    if c = quote then some ([], 1)
    else if c = '\n' ∨ c = '\r' then some ([], 0)
    else if c = '\\' then
      match escape? cs with
      | some (value, used) => (stringFrom quote used cs).map fun r => (value ++ r.1, r.2 + 1)
      | none => none
    else (stringFrom quote 0 cs).map fun r => (c :: r.1, r.2 + 1)

/-! ## Numbers -/

def isNumeral (c : Char) : Bool := isDigit c || c = '_'

def withoutSeparators (cs : List Char) : List Char := cs.filter (· ≠ '_')

/-- number of characters of a power of ten -/
def powerLength (cs : List Char) : Nat :=
  match cs with
  | e :: sign :: d :: rest =>
    if e = 'e' ∨ e = 'E' then
      if (sign = '+' ∨ sign = '-') ∧ isDigit d then 3 + (rest.takeWhile isNumeral).length
      else if isDigit sign then 1 + ((sign :: d :: rest).takeWhile isNumeral).length
      else 0
    else 0
  | [e, d] => if (e = 'e' ∨ e = 'E') ∧ isDigit d then 2 else 0
  | _ => 0

/-- a number in a base other than ten, after its two leading characters -/
def basedNumber (base : Nat) (cs : List Char) : Option (Lexeme × Nat) :=
  let digits := cs.takeWhile fun c => (digitValue? base c).isSome || c = '_'
  match natural? base (withoutSeparators digits) with
  | none => none
  | some n =>
    match cs.drop digits.length with
    | 'n' :: _ => some (.bigNumber (toString n), digits.length + 3)
    | _ => some (.number (.ofNat n), digits.length + 2)

/-- a number in base ten -/
def decimalNumber (cs : List Char) : Option (Lexeme × Nat) :=
  let whole := cs.takeWhile isNumeral
  let rest := cs.drop whole.length
  match rest with
  | 'n' :: _ => some (.bigNumber (String.ofList (withoutSeparators whole)), whole.length + 1)
  | _ =>
    let fraction := match rest with
      | '.' :: tail => '.' :: tail.takeWhile isNumeral
      | _ => []
    let power := powerLength (rest.drop fraction.length)
    let length := whole.length + fraction.length + power
    (decimal? (withoutSeparators (cs.take length))).map fun x => (.number x, length)

/-- the number at the start of a text, and the number of characters it takes -/
def number? (cs : List Char) : Option (Lexeme × Nat) :=
  match cs with
  | '0' :: 'x' :: rest => basedNumber 16 rest
  | '0' :: 'X' :: rest => basedNumber 16 rest
  | '0' :: 'o' :: rest => basedNumber 8 rest
  | '0' :: 'O' :: rest => basedNumber 8 rest
  | '0' :: 'b' :: rest => basedNumber 2 rest
  | '0' :: 'B' :: rest => basedNumber 2 rest
  | '0' :: c :: rest =>
    let digits := (c :: rest).takeWhile isDigit
    if digits.isEmpty ∨ digits.any (fun d => !isOctalDigit d) then decimalNumber cs
    else (natural? 8 digits).map fun n => (.number (.ofNat n), digits.length + 1)
  | _ => decimalNumber cs

/-! ## Marks -/

/-- marks of more than one character, longer ones first -/
def longMarks : List String :=
  [">>>=", "...", "===", "!==", "**=", "<<=", ">>=", ">>>", "&&=", "||=", "??=", "=>", "==", "!=", "<=", ">=", "++",
   "--", "<<", ">>", "&&", "||", "??", "?.", "+=", "-=", "*=", "/=", "%=", "&=", "|=", "^=", "**"]

/-- marks of one character -/
def shortMarks : List Char := "\x7b\x7d()[];,<>+-*/%&|^!~?:=.@\x60".toList

/-- the mark at the start of a text; a question mark before a decimal fraction stands alone -/
def mark? (cs : List Char) : Option String :=
  match cs with
  | [] => none
  | c :: rest =>
    let long := longMarks.find? fun m => m.toList.isPrefixOf cs
    let fraction := match rest with
      | '.' :: d :: _ => isDigit d
      | _ => false
    if c = '?' && fraction then some "?"
    else match long with
      | some m => some m
      | none => if shortMarks.contains c then some (String.singleton c) else none

/-! ## One token -/

/-- the lexeme at the start of a text without leading blanks, and the number of characters it takes -/
def lexeme (t : Tail) : Lexeme × Nat :=
  match t.chars with
  | [] => (.finish, 0)
  | c :: rest =>
    let fraction := match rest with
      | d :: _ => c = '.' && isDigit d
      | [] => false
    if isDigit c || fraction then
      match number? t.chars with
      | none => (.fault ⟨t.offset, .strayCharacter c⟩, 1)
      | some (number, count) =>
        match t.chars.drop count with
        | d :: _ =>
          if isNameStart d then (.fault ⟨(t.drop count).offset, .nameAfterNumber⟩, count) else (number, count)
        | [] => (number, count)
    else if c = '\x22' ∨ c = '\x27' then
      match stringFrom c 0 rest with
      | some (value, count) => (.string (String.ofList value), count + 1)
      | none => (.fault ⟨t.offset, .badEscape⟩, 1)
    else if c = '#' then
      match name? rest with
      | some (name, count, _) => (.privateName (String.ofList name), count + 1)
      | none => (.fault ⟨t.offset, .strayCharacter c⟩, 1)
    else
      match name? t.chars with
      | some (name, count, escaped) => (.word (String.ofList name) escaped, count)
      | none =>
        match mark? t.chars with
        | some m => (.mark m, m.length)
        | none => (.fault ⟨t.offset, .strayCharacter c⟩, 1)

/-- what one step of reading finds: the tail that starts with the token, the token, and the tail after it -/
structure Step where
  head : Tail
  token : Token
  tail : Tail
deriving Inhabited

/-- one token, after the blanks and comments before it -/
def scan (t : Tail) : Step :=
  let gap := passGap .blanks t.offset false t.chars
  let (found, count) := match gap.unclosed with
    | some offset => (Lexeme.fault ⟨offset, .unterminatedComment⟩, 1)
    | none => lexeme gap.tail
  let tail := gap.tail.drop count
  ⟨gap.tail, ⟨found, ⟨gap.tail.offset, tail.offset⟩, gap.newline⟩, tail⟩

end TsxWorkbench.Syntax
