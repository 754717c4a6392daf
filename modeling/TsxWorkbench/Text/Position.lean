/-
Coordinates in a text. Offsets count UTF-8 bytes from 0. Positions are 1-based pairs of line and column, a column
counts characters, and only a line feed ends a line. `position` and `offset?` go back and forth between the two;
`TextRange` is a half-open range of positions and `innermost` picks the least range around a point.
-/
import TsxWorkbench.Text.Lines

namespace TsxWorkbench.Text

/-! ## Bytes -/

/-- length of a text in UTF-8 bytes -/
def byteLen : List Char → Nat
  | [] => 0
  | c :: cs => c.utf8Size + byteLen cs

/-- the characters that end at or before byte n -/
def takeBytes (n : Nat) : List Char → List Char
  | [] => []
  | c :: cs => if c.utf8Size ≤ n then c :: takeBytes (n - c.utf8Size) cs else []

/-- the characters that start at or after byte n -/
def dropBytes (n : Nat) : List Char → List Char
  | [] => []
  | c :: cs => if n = 0 then c :: cs else dropBytes (n - c.utf8Size) cs

/-- the characters from byte lo up to byte hi -/
def sliceBytes (lo hi : Nat) (cs : List Char) : List Char := takeBytes (hi - lo) (dropBytes lo cs)

/-- half-open range of byte offsets -/
structure Span where
  lo : Nat
  hi : Nat
deriving DecidableEq, Repr, Inhabited

namespace Span

/-- the range cut down to a text of n bytes -/
def clamp (n : Nat) (s : Span) : Span :=
  let lo := min s.lo n
  ⟨lo, max lo (min s.hi n)⟩

/-- the text a range covers -/
def slice (s : Span) (cs : List Char) : List Char := sliceBytes s.lo s.hi cs

end Span

/-! ## Positions -/

/-- a line and a column, both counted from 1 -/
structure Position where
  line : Nat
  column : Nat
deriving DecidableEq, Repr, Inhabited

namespace Position

/-- reading order -/
def before (p q : Position) : Bool := p.line < q.line || (p.line == q.line && p.column < q.column)

/-- reading order, ends included -/
def atOrBefore (p q : Position) : Bool := !q.before p

end Position

/-- position reached after reading a text from position p -/
def advancePosition (p : Position) (cs : List Char) : Position :=
  cs.foldl (fun q c => if c = '\n' then ⟨q.line + 1, 1⟩ else ⟨q.line, q.column + 1⟩) p

/-- position of a byte offset; offsets past the end count as the end -/
def position (cs : List Char) (offset : Nat) : Position := advancePosition ⟨1, 1⟩ (takeBytes offset cs)

def lineCount (cs : List Char) : Nat := (splitLines cs).length

/-- text of a 1-based line without its line feed -/
def lineText? (cs : List Char) (line : Nat) : Option (List Char) :=
  if line = 0 then none else (splitLines cs)[line - 1]?

/-- byte offset at which a 1-based line starts -/
def lineStart (cs : List Char) (line : Nat) : Nat :=
  ((splitLines cs).take (line - 1)).foldr (fun l n => byteLen l + 1 + n) 0

/-- byte offset of a position; the column may sit one past the end of its line -/
def offset? (cs : List Char) (p : Position) : Option Nat :=
  match lineText? cs p.line with
  | none => none
  | some line =>
    if p.column = 0 ∨ line.length < p.column - 1 then none
    else some (lineStart cs p.line + byteLen (line.take (p.column - 1)))

/-- blanks and tabs at the start of the line that holds a byte offset -/
def indentationAt (cs : List Char) (offset : Nat) : List Char :=
  ((lineText? cs (position cs offset).line).getD []).takeWhile fun c => c = ' ' || c = '\t'

/-! ## Ranges -/

/-- a range of positions; the end is just past the last character -/
structure TextRange where
  startLine : Nat
  startColumn : Nat
  endLine : Nat
  endColumn : Nat
deriving DecidableEq, Repr, Inhabited

namespace TextRange

def start (r : TextRange) : Position := ⟨r.startLine, r.startColumn⟩

def stop (r : TextRange) : Position := ⟨r.endLine, r.endColumn⟩

def contains (r : TextRange) (p : Position) : Bool := r.start.atOrBefore p && p.before r.stop

/-- size of a range: lines first, then the difference of its columns -/
def extent (r : TextRange) : Nat × Int := (r.endLine - r.startLine, (r.endColumn : Int) - (r.startColumn : Int))

end TextRange

/-- order of extents: fewer lines first, then fewer columns -/
def smallerExtent (a b : Nat × Int) : Bool := a.1 < b.1 || (a.1 == b.1 && a.2 < b.2)

/-- range of positions of a byte range -/
def rangeOf (cs : List Char) (s : Span) : TextRange :=
  let p := position cs s.lo
  let q := position cs s.hi
  ⟨p.line, p.column, q.line, q.column⟩

/-- the better of the choice so far and the next item: the smaller one, and the later one of a tie -/
def closer {α : Type} (point : Position) (best : Option ((Nat × Int) × α)) (item : TextRange × α) :
    Option ((Nat × Int) × α) :=
  if item.1.contains point then
    match best with
    | some b => if smallerExtent b.1 item.1.extent then some b else some (item.1.extent, item.2)
    | none => some (item.1.extent, item.2)
  else best

/-- the item with the least range around a point; the later item wins a tie, which in a listing where parents come
first is the deeper one -/
def innermost {α : Type} (items : List (TextRange × α)) (point : Position) : Option α :=
  (items.foldl (closer point) none).map Prod.snd

end TsxWorkbench.Text
