/-
Virtual files inside one source. Marker lines split the source into a main block and named files; every line in
between belongs to exactly one of them. `scan` gives the blocks, without blanks at their ends, and the expansion of the
main block, in which each import line of a known file stands for the expanded lines of that file, with a map from
expanded lines back to lines of blocks and from there to lines of the source.
-/
import TsxWorkbench.Files.Marker
import TsxWorkbench.Text.Lines

namespace TsxWorkbench.Files

open Text

/-! ## Blocks -/

/-- what a line of the source is -/
inductive Placement where
  | opens (name : String)
  | ends
  | content (file : Option String)
deriving DecidableEq, Repr

/-- placement of each line, from the file that is open at the start; an end without an open file is content -/
def place : Option String → List (List Char) → List Placement
  | _, [] => []
  | current, line :: rest =>
    match opened? line with
    | some name => .opens name :: place (some name) rest
    | none =>
      if current.isSome && isEnd line then .ends :: place none rest
      else .content current :: place current rest

/-- lines of a text; an empty text has none -/
def blockLines (cs : List Char) : List (List Char) := if cs.isEmpty then [] else splitLines cs

/-- the lines placed in a block, with their numbers in the source -/
def linesOf (file : Option String) (placed : List (Nat × List Char × Placement)) : List (Nat × List Char) :=
  placed.filterMap fun (n, line, p) => if p = .content file then some (n, line) else none

/-- lines of a source with number and placement -/
def placedLines (source : List Char) : List (Nat × List Char × Placement) :=
  let lines := blockLines source
  (List.range' 1 lines.length).zip (lines.zip (place none lines))

/-- a block of lines: its text without blanks at the end, and the source lines that its lines come from -/
structure Block where
  text : List Char
  rawLines : List Nat
deriving DecidableEq, Repr

def blockOf (file : Option String) (placed : List (Nat × List Char × Placement)) : Block :=
  let lines := linesOf file placed
  let text := trimEnd (joinLines (lines.map Prod.snd))
  ⟨text, (lines.map Prod.fst).take (blockLines text).length⟩

/-- names of the files in order of their first marker -/
def fileNames (placed : List (Nat × List Char × Placement)) : List String :=
  (placed.filterMap fun (_, _, p) => match p with
    | .opens name => some name
    | _ => none).eraseDups

/-! ## Expansion -/

/-- an expanded line and where it comes from -/
structure OriginLine where
  file : Option String
  line : Nat
  text : List Char
deriving DecidableEq, Repr

/-- the file that a line imports, if it is known and not open on this branch -/
def importable? (files : List (String × Block)) (active : List String) (line : List Char) :
    Option (String × Block) :=
  match importTarget? line with
  | none => none
  | some target =>
    match files.find? fun f => f.1 == String.ofList target with
    | some f => if active.contains f.1 then none else some f
    | none => none

/-- lines of a block with import lines replaced, at most `depth` levels deep -/
def expand (files : List (String × Block)) :
    (depth : Nat) → (active : List String) → (file : Option String) → List Char → List OriginLine
  | 0, _, file, text => (blockLines text).zipIdx 1 |>.map fun (line, n) => ⟨file, n, line⟩
  | depth + 1, active, file, text => (blockLines text).zipIdx 1 |>.flatMap fun (line, n) =>
      match importable? files active line with
      | some (name, block) => expand files depth (name :: active) (some name) block.text
      | none => [⟨file, n, line⟩]

/-! ## Line map -/

/-- a run of expanded lines that are consecutive lines of one block -/
structure Segment where
  file : Option String
  expandedStart : Nat
  blockStart : Nat
  count : Nat
deriving DecidableEq, Repr

def Segment.contains (s : Segment) (line : Nat) : Bool :=
  s.expandedStart ≤ line && line < s.expandedStart + s.count

/-- runs of a list of origins; `next` is the number of its first line -/
def segments : (next : Nat) → List OriginLine → List Segment
  | _, [] => []
  | next, o :: rest =>
    match segments (next + 1) rest with
    | s :: more =>
      if s.file = o.file ∧ s.blockStart = o.line + 1 then ⟨o.file, next, o.line, s.count + 1⟩ :: more
      else ⟨o.file, next, o.line, 1⟩ :: s :: more
    | [] => [⟨o.file, next, o.line, 1⟩]

/-! ## Scan -/

/-- the parts of a source -/
structure Scan where
  main : Block
  files : List (String × Block)
  hasFileBlocks : Bool
  expandedSource : List Char
  segments : List Segment
deriving DecidableEq, Repr

/-- levels of imports that are expanded unless settings say otherwise -/
def defaultDepth : Nat := 20

/-- the parts of a source, with imports expanded up to a depth -/
def scanWithDepth (source : List Char) (depth : Nat) : Scan :=
  let placed := placedLines source
  let names := fileNames placed
  let main := blockOf none placed
  let files := names.map fun name => (name, blockOf (some name) placed)
  let origins := expand files depth [] none main.text
  let expanded := trimEnd (joinLines (origins.map OriginLine.text))
  ⟨main, files, !names.isEmpty, expanded, segments 1 (origins.take (blockLines expanded).length)⟩

def scan (source : List Char) : Scan := scanWithDepth source defaultDepth

namespace Scan

/-- line of the source that a line of the main block or of a file comes from -/
def rawLine? (s : Scan) (file : Option String) (line : Nat) : Option Nat :=
  let block := match file with
    | none => some s.main
    | some name => (s.files.find? fun (f : String × Block) => f.1 == name).map Prod.snd
  match block with
  | none => none
  | some b => if line = 0 then none else b.rawLines[line - 1]?

/-- block and line that an expanded line comes from -/
def origin? (s : Scan) (line : Nat) : Option (Option String × Nat) :=
  (s.segments.find? fun g => g.contains line).map fun g => (g.file, g.blockStart + (line - g.expandedStart))

end Scan

end TsxWorkbench.Files
