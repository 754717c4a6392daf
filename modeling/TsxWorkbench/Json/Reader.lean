/-
Reading JSON text with exact faults. A cursor is the text still to read and the byte index it starts at. A fault is a
cause and the byte index it is reported at: causes seen by looking at the next byte are reported one past it, causes
seen after reading are reported at the index reached. Reading is directed by what is expected: whole numbers, strings,
records (from an object or from an array of the fields in order), and values that are skipped.
-/
import TsxWorkbench.Json.Value
import TsxWorkbench.Text.Position

namespace TsxWorkbench.Json

open Number

/-! ## Faults -/

/-- why a JSON text is refused -/
inductive Fault where
  | endOfList
  | endOfObject
  | endOfString
  | endOfValue
  | colonExpected
  | commaOrBracketExpected
  | commaOrBraceExpected
  | wordExpected
  | valueExpected
  | badEscape
  | badNumber
  | numberOutOfRange
  | controlCharacter
  | keyNotString
  | loneSurrogate
  | endOfHexEscape
  | trailingComma
  | trailingCharacters
  | wrongType (found expected : String)
  | wrongValue (found expected : String)
  | wrongLength (found : Nat) (expected : String)
  | duplicateField (name : String)
  | noVariant (name : String)
deriving DecidableEq, Repr

/-- wording of a fault -/
def Fault.message : Fault → String
  | .endOfList => "EOF while parsing a list"
  | .endOfObject => "EOF while parsing an object"
  | .endOfString => "EOF while parsing a string"
  | .endOfValue => "EOF while parsing a value"
  | .colonExpected => "expected `:`"
  | .commaOrBracketExpected => "expected `,` or `]`"
  | .commaOrBraceExpected => "expected `,` or `\x7d`"
  | .wordExpected => "expected ident"
  | .valueExpected => "expected value"
  | .badEscape => "invalid escape"
  | .badNumber => "invalid number"
  | .numberOutOfRange => "number out of range"
  | .controlCharacter => "control character (\\u0000-\\u001F) found while parsing a string"
  | .keyNotString => "key must be a string"
  | .loneSurrogate => "lone leading surrogate in hex escape"
  | .endOfHexEscape => "unexpected end of hex escape"
  | .trailingComma => "trailing comma"
  | .trailingCharacters => "trailing characters"
  | .wrongType found expected => "invalid type: " ++ found ++ ", expected " ++ expected
  | .wrongValue found expected => "invalid value: " ++ found ++ ", expected " ++ expected
  | .wrongLength found expected => "invalid length " ++ toString found ++ ", expected " ++ expected
  | .duplicateField name => "duplicate field `" ++ name ++ "`"
  | .noVariant name => "data did not match any variant of untagged enum " ++ name

/-- a fault at a byte index -/
structure Failure where
  fault : Fault
  index : Nat
deriving DecidableEq, Repr

/-- what a value is called in a fault -/
def describe : Json → String
  | .null => "null"
  | .bool b => "boolean `" ++ (if b then "true" else "false") ++ "`"
  | .int n => "integer `" ++ toString n ++ "`"
  | .float x => "floating point `" ++ String.ofList x.dataText ++ "`"
  | .string s => "string " ++ String.ofList ('\x22' :: (s.toList.flatMap debugChar ++ ['\x22']))
  | .array _ => "sequence"
  | .object _ => "map"
where
  debugChar (c : Char) : List Char :=
    if c = '\x22' then ['\\', '\x22']
    else if c = '\\' then ['\\', '\\']
    else if c = '\n' then ['\\', 'n']
    else if c = '\r' then ['\\', 'r']
    else if c = '\t' then ['\\', 't']
    else if c.toNat = 0 then ['\\', '0']
    else if c.toNat < 0x20 ∨ c.toNat = 0x7f then ['\\', 'u', '\x7b'] ++ Nat.toDigits 16 c.toNat ++ ['\x7d']
    else [c]

/-! ## Cursor -/

/-- the text still to read and the byte index where it starts -/
structure Cursor where
  rest : List Char
  index : Nat
deriving Repr

abbrev Read (α : Type) := Except Failure (α × Cursor)

namespace Cursor

def start (cs : List Char) : Cursor := ⟨cs, 0⟩

/-- the cursor one character on -/
def next (c : Cursor) : Cursor :=
  match c.rest with
  | [] => c
  | x :: rest => ⟨rest, c.index + x.utf8Size⟩

/-- a fault found by looking at the next byte -/
def ahead (c : Cursor) (f : Fault) : Failure := ⟨f, if c.rest.isEmpty then c.index else c.index + 1⟩

/-- a fault found after reading -/
def here (c : Cursor) (f : Fault) : Failure := ⟨f, c.index⟩

/-- past spaces, tabs and line ends -/
def skipSpace (c : Cursor) : Cursor :=
  let isSpace (x : Char) : Bool := x = ' ' || x = '\t' || x = '\n' || x = '\r'
  ⟨c.rest.dropWhile isSpace, c.index + (c.rest.takeWhile isSpace).length⟩

/-- reads the letters of a word -/
def word (c : Cursor) : List Char → Except Failure Cursor
  | [] => .ok c
  | x :: xs =>
    match c.rest with
    | [] => .error (c.here .endOfValue)
    | y :: _ => if x = y then c.next.word xs else .error (c.next.here .wordExpected)

end Cursor

/-! ## Scalars -/

/-- digits read so far, as a number and a count -/
private def readDigits (c : Cursor) : List Char × Cursor :=
  let ds := c.rest.takeWhile isDigit
  (ds, ⟨c.rest.dropWhile isDigit, c.index + ds.length⟩)

/-- integers of 64 bits stay integers, others and numbers with a point or a power are doubles -/
private def readNumber (negative : Bool) (c : Cursor) : Read Json :=
  match c.rest with
  | [] => .error (c.here .endOfValue)
  | d :: more =>
    if !isDigit d then .error (c.next.here .badNumber)
    else if d = '0' && (more.head?.map isDigit).getD false then .error (c.next.ahead .badNumber)
    else
      let (whole, c) := readDigits c
      let fraction : Except Failure (List Char × Cursor) :=
        match c.rest with
        | '.' :: _ =>
          let (ds, c') := readDigits c.next
          if ds.isEmpty then
            .error (c.next.ahead (if c.next.rest.isEmpty then .endOfValue else .badNumber))
          else .ok (ds, c')
        | _ => .ok ([], c)
      match fraction with
      | .error e => .error e
      | .ok (places, c) =>
        let digits := (digitsValue? 10 (whole ++ places)).getD 0
        match c.rest with
        | x :: _ =>
          if x = 'e' ∨ x = 'E' then
            let c := c.next
            let minus := c.rest.head? == some '-'
            let c := if minus || c.rest.head? == some '+' then c.next else c
            let (power, c') := readDigits c
            if power.isEmpty then
              .error (if c.rest.isEmpty then c.here .endOfValue else c.next.here .badNumber)
            else
              let n : Int := (digitsValue? 10 power).getD 0
              let x := Binary64.ofDecimal negative digits ((if minus then -n else n) - (places.length : Int))
              if x.isFinite then .ok (.float x, c') else .error (c'.here .numberOutOfRange)
          else if places.isEmpty then .ok (wholeNumber digits, c)
          else .ok (.float (.ofDecimal negative digits (-(places.length : Int))), c)
        | [] =>
          if places.isEmpty then .ok (wholeNumber digits, c)
          else .ok (.float (.ofDecimal negative digits (-(places.length : Int))), c)
where
  wholeNumber (n : Nat) : Json :=
    if negative then
      if n ≠ 0 ∧ n ≤ Nat.pow 2 63 then .int (-(n : Int)) else .float (.ofDecimal true n 0)
    else if n < Nat.pow 2 64 then .int n else .float (.ofDecimal false n 0)

private def readHex4 (c : Cursor) : Except Failure (Nat × Cursor) :=
  let ds := c.rest.take 4
  if ds.length < 4 then .error ⟨.endOfString, c.index + Text.byteLen ds⟩
  else match digitsValue? 16 ds with
    | some n => .ok (n, ⟨c.rest.drop 4, c.index + 4⟩)
    | none => .error ⟨.badEscape, c.index + Text.byteLen ds⟩

/-- a code point from its escape, and from two if it starts a surrogate pair -/
private def readUnicode (c : Cursor) : Except Failure (Char × Cursor) := do
  let (n, c) ← readHex4 c
  if 0xDC00 ≤ n ∧ n ≤ 0xDFFF then throw (c.here .loneSurrogate)
  else if 0xD800 ≤ n ∧ n ≤ 0xDBFF then
    match c.rest with
    | '\\' :: 'u' :: rest =>
      let (low, c) ← readHex4 ⟨rest, c.index + 2⟩
      if 0xDC00 ≤ low ∧ low ≤ 0xDFFF then
        return (Char.ofNat ((n - 0xD800) * 0x400 + (low - 0xDC00) + 0x10000), c)
      else throw (c.here .loneSurrogate)
    | _ => throw (c.next.here .endOfHexEscape)
  else return (Char.ofNat n, c)

private def simpleEscape? (x : Char) : Option Char :=
  [('\x22', '\x22'), ('\\', '\\'), ('/', '/'), ('b', '\x08'), ('f', '\x0c'), ('n', '\n'), ('r', '\r'),
    ('t', '\t')].lookup x

/-- the rest of a string, after its opening quote -/
private def readStringFrom : Nat → List Char → Cursor → Read String
  | 0, _, c => .error (c.here .endOfString)
  | fuel + 1, out, c =>
    match c.rest with
    | [] => .error (c.here .endOfString)
    | x :: _ =>
      if x = '\x22' then .ok (String.ofList out.reverse, c.next)
      else if x = '\\' then
        match c.next.rest with
        | [] => .error (c.next.here .endOfString)
        | 'u' :: _ =>
          match readUnicode c.next.next with
          | .error e => .error e
          | .ok (y, c') => readStringFrom fuel (y :: out) c'
        | e :: _ =>
          match simpleEscape? e with
          | some y => readStringFrom fuel (y :: out) c.next.next
          | none => .error (c.next.next.here .badEscape)
      else if x.toNat < 0x20 then .error (c.next.here .controlCharacter)
      else readStringFrom fuel (x :: out) c.next

private def readStringBody (c : Cursor) : Read String := readStringFrom (c.rest.length + 1) [] c

/-- a scalar at the cursor; the start of a list or an object is named but not read -/
private def readScalar (c : Cursor) : Read Json :=
  match c.rest with
  | [] => .error (c.ahead .endOfValue)
  | x :: _ =>
    if x = 'n' then (c.next.word "ull".toList).map fun c' => (.null, c')
    else if x = 't' then (c.next.word "rue".toList).map fun c' => (.bool true, c')
    else if x = 'f' then (c.next.word "alse".toList).map fun c' => (.bool false, c')
    else if x = '-' then readNumber true c.next
    else if isDigit x then readNumber false c
    else if x = '\x22' then (readStringBody c.next).map fun (s, c') => (.string s, c')
    else if x = '[' then .ok (.array [], c)
    else if x = '\x7b' then .ok (.object [], c)
    else .error (c.ahead .valueExpected)

/-- a whole number at most a bound, named by its type -/
def readUnsigned (bound : Nat) (name : String) (c : Cursor) : Read Nat :=
  match readScalar c.skipSpace with
  | .error e => .error e
  | .ok (.int n, c') =>
    if 0 ≤ n ∧ n.toNat ≤ bound then .ok (n.toNat, c') else .error (c'.here (.wrongValue (describe (.int n)) name))
  | .ok (v, c') => .error (c'.here (.wrongType (describe v) name))

def readText (c : Cursor) : Read String :=
  match readScalar c.skipSpace with
  | .error e => .error e
  | .ok (.string s, c') => .ok (s, c')
  | .ok (v, c') => .error (c'.here (.wrongType (describe v) "a string"))

/-! ## Values -/

/-- key of the next field of an object, or nothing at its end -/
private def readKey (first : Bool) (c : Cursor) : Read (Option String) :=
  let c := c.skipSpace
  let key (c : Cursor) : Read (Option String) := (readStringBody c.next).map fun (s, c') => (some s, c')
  match c.rest with
  | [] => .error (c.ahead .endOfObject)
  | x :: _ =>
    if x = '\x7d' then .ok (none, c)
    else if first then
      if x = '\x22' then key c else .error (c.ahead .keyNotString)
    else if x = ',' then
      let c := c.next.skipSpace
      match c.rest with
      | [] => .error (c.ahead .endOfValue)
      | y :: _ =>
        if y = '\x22' then key c
        else if y = '\x7d' then .error (c.ahead .trailingComma)
        else .error (c.ahead .keyNotString)
    else .error (c.ahead .commaOrBraceExpected)

private def readColon (c : Cursor) : Except Failure Cursor :=
  let c := c.skipSpace
  match c.rest with
  | [] => .error (c.ahead .endOfObject)
  | x :: _ => if x = ':' then .ok c.next else .error (c.ahead .colonExpected)

/-- whether an array goes on, at its next item -/
private def readItem (first : Bool) (c : Cursor) : Read Bool :=
  let c := c.skipSpace
  match c.rest with
  | [] => .error (c.ahead .endOfList)
  | x :: _ =>
    if x = ']' then .ok (false, c)
    else if first then .ok (true, c)
    else if x = ',' then
      let c := c.next.skipSpace
      match c.rest with
      | [] => .error (c.ahead .endOfValue)
      | y :: _ => if y = ']' then .error (c.ahead .trailingComma) else .ok (true, c)
    else .error (c.ahead .commaOrBracketExpected)

/-- what a value in progress is waiting for -/
private inductive Frame where
  | list (items : List Json)
  | fields (done : List (String × Json)) (key : String)

/-- any value, with a stack of the lists and objects around it -/
private def readAny : Nat → List Frame → Cursor → Read Json
  | 0, _, c => .error (c.here .endOfValue)
  | fuel + 1, stack, c =>
    match readScalar c.skipSpace with
    | .error e => .error e
    | .ok (.array _, c) =>
      match readItem true c.next with
      | .error e => .error e
      | .ok (true, c) => readAny fuel (.list [] :: stack) c
      | .ok (false, c) => close fuel stack (.array []) c.next
    | .ok (.object _, c) =>
      match readKey true c.next with
      | .error e => .error e
      | .ok (some key, c) =>
        match readColon c with
        | .error e => .error e
        | .ok c => readAny fuel (.fields [] key :: stack) c
      | .ok (none, c) => close fuel stack (.object []) c.next
    | .ok (v, c) => close fuel stack v c
where
  close : Nat → List Frame → Json → Cursor → Read Json
  | _, [], v, c => .ok (v, c)
  | 0, _, _, c => .error (c.here .endOfValue)
  | fuel + 1, .list items :: stack, v, c =>
    match readItem false c with
    | .error e => .error e
    | .ok (true, c) => readAny fuel (.list (v :: items) :: stack) c
    | .ok (false, c) => close fuel stack (.array (v :: items).reverse) c.next
  | fuel + 1, .fields done key :: stack, v, c =>
    match readKey false c with
    | .error e => .error e
    | .ok (some next, c') =>
      match readColon c' with
      | .error e => .error e
      | .ok c' => readAny fuel (.fields (setField done key v) next :: stack) c'
    | .ok (none, c) => close fuel stack (.object (setField done key v)) c.next

/-- any value; a repeated key keeps the last value -/
def readValue (c : Cursor) : Read Json := readAny (4 * c.rest.length + 4) [] c

/-- the end of the text, after blanks -/
def readEnd (c : Cursor) : Except Failure Unit :=
  let c := c.skipSpace
  if c.rest.isEmpty then .ok () else .error (c.ahead .trailingCharacters)

/-- a text that holds one value -/
def parse (cs : List Char) : Except Failure Json := do
  let (v, c) ← readValue (.start cs)
  readEnd c
  return v

/-! ## Records -/

/-- a record in progress: its value and the names of the fields that were given -/
structure Partial (σ : Type) where
  value : σ
  given : List String

/-- the end of a record, from the index where its reading stopped -/
private def afterObject (c : Cursor) : Cursor :=
  let c := c.skipSpace
  if c.rest.head? == some '\x7d' then c.next else c

private def fieldsFrom {σ : Type} (names : List String) (set : String → σ → Cursor → Read σ) :
    Nat → Bool → Partial σ → Cursor → Read σ
  | 0, _, _, c => .error (c.here .endOfObject)
  | fuel + 1, first, p, c =>
    match readKey first c with
    | .error e => .error e
    | .ok (none, c) => .ok (p.value, c.next)
    | .ok (some key, c) =>
      if names.contains key then
        if p.given.contains key then .error ((afterObject c).here (.duplicateField key))
        else match readColon c with
          | .error e => .error e
          | .ok c =>
            match set key p.value c with
            | .error e => .error e
            | .ok (v, c) => fieldsFrom names set fuel false ⟨v, key :: p.given⟩ c
      else match readColon c with
        | .error e => .error e
        | .ok c =>
          match readValue c with
          | .error e => .error e
          | .ok (_, c) => fieldsFrom names set fuel false p c

/-- the end of an array of fields; anything left is refused -/
private def readListEnd (c : Cursor) : Except Failure Cursor :=
  let c := c.skipSpace
  match c.rest with
  | [] => .error (c.ahead .endOfList)
  | x :: _ =>
    if x = ']' then .ok c.next
    else if x = ',' then
      let c := c.next.skipSpace
      .error (c.ahead (if c.rest.head? == some ']' then .trailingComma else .trailingCharacters))
    else .error (c.ahead .trailingCharacters)

private def itemsFrom {σ : Type} (set : String → σ → Cursor → Read σ) : List String → Bool → σ → Cursor → Read σ
  | [], _, v, c => (readListEnd c).map fun c => (v, c)
  | name :: names, first, v, c =>
    match readItem first c with
    | .error e => .error e
    | .ok (false, c) => .ok (v, c.next)
    | .ok (true, c) =>
      match set name v c with
      | .error e => .error e
      | .ok (v, c) => itemsFrom set names false v c

/-- a record with optional fields: an object with these keys and any others, each of these at most once, or an array of
the fields in order -/
def readRecord {σ : Type} (type : String) (names : List String) (init : σ) (set : String → σ → Cursor → Read σ)
    (c : Cursor) : Read σ :=
  match readScalar c.skipSpace with
  | .error e => .error e
  | .ok (.object _, c) => fieldsFrom names set (c.rest.length + 1) true ⟨init, []⟩ c.next
  | .ok (.array _, c) => itemsFrom set names true init c.next
  | .ok (v, c) => .error (c.here (.wrongType (describe v) ("struct " ++ type)))

/-- line and column of a byte index: lines from 1, columns in bytes from the last line feed -/
def lineColumn (cs : List Char) (index : Nat) : Nat × Nat :=
  let before := Text.takeBytes index cs
  let lines := Text.splitLines before
  (lines.length, Text.byteLen (lines.getLast?.getD []) + (min index (Text.byteLen cs) - Text.byteLen before))

end TsxWorkbench.Json
