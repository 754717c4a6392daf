/-
The workbench: its settings, its two lazily loaded backends, the last scan and the cache of style sheets. `run` carries
out one operation and gives its answer with the workbench after it. A backend may fail to load and the class compiler
may refuse its input or stop; all other troubles are part of an answer.
-/
import TsxWorkbench.Analysis.Inspect
import TsxWorkbench.Analysis.Props
import TsxWorkbench.Analysis.Security
import TsxWorkbench.Digest
import TsxWorkbench.Edit.Insert
import TsxWorkbench.Edit.Move
import TsxWorkbench.Edit.Style
import TsxWorkbench.Files.Scan
import TsxWorkbench.State.Loader
import TsxWorkbench.State.Memo
import TsxWorkbench.State.StyleCache

namespace TsxWorkbench

open Text State Analysis Edit Number

/-! ## Options -/

/-- parts of an analysis that are left out unless asked for -/
structure AnalyzeOptions where
  includeStyles : Bool
  includeInspect : Bool
deriving DecidableEq, Repr, Inhabited

namespace AnalyzeOptions

private def readBool : Json → Except Json.Fault Bool
  | .bool b => .ok b
  | v => .error (.wrongType (Json.describe v) "a boolean")

private def fieldOr (v : Json) (key : String) : Except Json.Fault Bool :=
  match v.field? key with
  | some b => readBool b
  | none => .ok false

/-- options from an object, or from an array of its fields in order -/
def ofJson : Json → Except Json.Fault AnalyzeOptions
  | .array items =>
    match items with
    | [] => .ok ⟨false, false⟩
    | [styles] => (readBool styles).map fun b => ⟨b, false⟩
    | styles :: inspect :: rest => do
      let b ← readBool styles
      let c ← readBool inspect
      if rest.isEmpty then return ⟨b, c⟩
      throw (.wrongLength items.length "fewer elements in array")
  | v =>
    match v with
    | .object _ => do
      let inspect ← fieldOr v "includeInspect"
      let styles ← fieldOr v "includeTailwind"
      return ⟨styles, inspect⟩
    | _ => .error (.wrongType (Json.describe v) "struct AnalyzeOptions")

end AnalyzeOptions

/-! ## Analysis -/

/-- what is told about a source; nothing is told of a source that is no module but why it is none -/
structure Report where
  props : Props
  issues : List Issue
  css : Option (List Char)
  digest : List Char
  inspect : Option (List (String × InspectIndex))
  segments : List Files.Segment
  parseError : Option String

/-- name under which the main block is indexed -/
def mainBlockName : String := "__main__"

/-- a list of pairs with one key set; a key that is there keeps its place -/
def setKey {α : Type} (pairs : List (String × α)) (key : String) (a : α) : List (String × α) :=
  if pairs.any (·.1 == key) then pairs.map fun p => if p.1 == key then (key, a) else p
  else pairs ++ [(key, a)]

/-- index of a block, if it is a module -/
def blockIndex? (limit : Nat) (text : List Char) : Option InspectIndex :=
  match Syntax.parseModule text with
  | .ok m => some (InspectIndex.ofModule text limit m)
  | .error _ => none

/-- indexes of the main block and of the files that are modules, each in its own coordinates -/
def inspectBlocks (limit : Nat) (scan : Files.Scan) : List (String × InspectIndex) :=
  let blocks := (mainBlockName, scan.main.text) :: scan.files.map fun f => (f.1, f.2.text)
  let indexes := blocks.filterMap fun b => (blockIndex? limit b.2).map fun index => (b.1, index)
  indexes.foldl (fun done p => setKey done p.1 p.2) []

/-- a report of a source that is no module -/
def Report.unparsed (scan : Files.Scan) (error : String) : Report :=
  ⟨⟨[], [], []⟩, [], none, Digest.ofSource scan.expandedSource, none, scan.segments, some error⟩

/-! ## State -/

inductive WorkbenchError where
  | load (error : LoadError)
  | style (error : StyleError)
deriving DecidableEq, Repr

def WorkbenchError.message? : WorkbenchError → Option String
  | .load e => some e.message
  | .style e => e.message?

structure Workbench where
  config : Config
  parser : Loader Unit
  compiler : Loader Compiler
  scans : Memo (List Char) Files.Scan
  styles : StyleCache
  /-- number of style sheets that were compiled so far -/
  compilations : Nat

namespace Workbench

/-- a workbench whose class compiler comes from a factory -/
def withCompiler (config : Config) (factory : Nat → Attempt Compiler) : Workbench :=
  let limit := config.parser.loadTimeoutMs
  let cooldown := config.parser.failureCooldownMs
  ⟨config, .new "parser" limit cooldown fun _ => ⟨.value (), 0⟩, .new "tailwind compiler" limit cooldown factory,
    .empty, .empty (clearPast config.utility.cacheMaxEntries), 0⟩

/-- a workbench with the class compiler of this library -/
def new (config : Config) : Workbench := withCompiler config fun _ => ⟨.value Utility.Machine.compile, 0⟩

/-- drops the last scan, the style sheets and both backends -/
def reset (w : Workbench) : Workbench :=
  { w with parser := w.parser.reset, compiler := w.compiler.reset, scans := w.scans.reset, styles := w.styles.reset }

/-- parts of a source; those of the last one are kept -/
def scan (w : Workbench) (source : List Char) : Files.Scan × Workbench :=
  let (s, scans) := w.scans.getOrCompute source fun _ => Files.scanWithDepth source w.config.files.maxImportDepth
  (s, { w with scans := scans })

/-- carries on if the parser is there -/
def withParser {α : Type} (w : Workbench) (nowMs : Nat) (f : Workbench → Except WorkbenchError α × Workbench) :
    Except WorkbenchError α × Workbench :=
  match w.parser.get nowMs with
  | (.error e, parser) => (.error (.load e), { w with parser := parser })
  | (.ok _, parser) => f { w with parser := parser }

/-- style sheet of a list of classes -/
def compileStyles (w : Workbench) (nowMs : Nat) (classes : List (List Char)) :
    Except WorkbenchError (List Char) × Workbench :=
  match w.compiler.get nowMs with
  | (.error e, compiler) => (.error (.load e), { w with compiler := compiler })
  | (.ok compile, compiler) =>
    let done := compileCached compile w.styles w.config.utility classes
    let w := { w with
      compiler := compiler, styles := done.cache, compilations := w.compilations + (if done.compiled then 1 else 0) }
    match done.answer with
    | .ok css => (.ok css, w)
    | .error e => (.error (.style e), w)

/-- report of a module that was read from the expanded source of a scan -/
def report (w : Workbench) (nowMs : Nat) (scan : Files.Scan) (m : Syntax.Module) (options : AnalyzeOptions) :
    Except WorkbenchError Report × Workbench :=
  let source := scan.expandedSource
  let finish (css : Option (List Char)) : Report :=
    ⟨Props.ofModule m, securityIssues source m, css, Digest.ofSource source,
      if options.includeInspect then some (inspectBlocks w.config.inspect.maxTextRanges scan) else none,
      scan.segments, none⟩
  if options.includeStyles then
    match w.compileStyles nowMs ((candidates m).map String.toList) with
    | (.ok css, w) => (.ok (finish (some css)), w)
    | (.error e, w) => (.error e, w)
  else (.ok (finish none), w)

def analyze (w : Workbench) (nowMs : Nat) (source : List Char) (options : AnalyzeOptions) :
    Except WorkbenchError Report × Workbench :=
  let (scan, w) := w.scan source
  w.withParser nowMs fun w =>
    match Syntax.parseModule scan.expandedSource with
    | .error failure => (.ok (.unparsed scan (failure.message scan.expandedSource)), w)
    | .ok m => w.report nowMs scan m options

/-! ## Operations -/

end Workbench

inductive Operation where
  | scan (source : List Char)
  | analyze (source : List Char) (options : AnalyzeOptions)
  | insert (source : List Char) (point : Position) (child : List Char)
  | style (source : List Char) (point : Position) (update : StyleUpdate)
  | move (source : List Char) (point : Position) (dx dy : Binary64)
  | inspect (source : List Char)
  | reset

inductive WorkbenchAnswer where
  | scan (scan : Files.Scan)
  | report (report : Report)
  | edit (result : EditResult)
  | index (index : Option InspectIndex)
  | done

namespace Workbench

/-- an edit, which needs the parser -/
private def edit (w : Workbench) (nowMs : Nat) (result : EditResult) :
    Except WorkbenchError WorkbenchAnswer × Workbench :=
  w.withParser nowMs fun w => (.ok (.edit result), w)

/-- one operation at a time -/
def run (w : Workbench) (nowMs : Nat) : Operation → Except WorkbenchError WorkbenchAnswer × Workbench
  | .scan source =>
    let (s, w) := w.scan source
    (.ok (.scan s), w)
  | .analyze source options =>
    let (r, w) := w.analyze nowMs source options
    (r.map .report, w)
  | .insert source point child => w.edit nowMs (insertChild w.config.editor.indentUnit.toList source point child)
  | .style source point update => w.edit nowMs (updateStyle w.config.editor.indentUnit.toList source point update)
  | .move source point dx dy =>
    w.edit nowMs (moveElement w.config.editor.indentUnit.toList source point dx dy)
  | .inspect source =>
    w.withParser nowMs fun w => (.ok (.index (blockIndex? w.config.inspect.maxTextRanges source)), w)
  | .reset => (.ok .done, w.reset)

end Workbench

end TsxWorkbench
