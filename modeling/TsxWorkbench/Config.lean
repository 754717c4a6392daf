/-
Settings of a workbench. A host gives them as a JSON text in which every field may be missing; limits that would make
the workbench useless at zero are refused there, the first of them in a fixed order.
-/
import TsxWorkbench.Json.Reader

namespace TsxWorkbench

/-- loading of the parser: how long an attempt may take and how long a failure is repeated to callers -/
structure ParserConfig where
  loadTimeoutMs : Nat := 10000
  failureCooldownMs : Nat := 5000
deriving DecidableEq, Repr, Inhabited

structure FilesConfig where
  maxImportDepth : Nat := 20
deriving DecidableEq, Repr, Inhabited

structure UtilityConfig where
  maxCandidates : Nat := 2000
  maxCssBytes : Nat := 524288
  /-- the cache of style sheets is emptied once it holds this many -/
  cacheMaxEntries : Nat := 32
deriving DecidableEq, Repr, Inhabited

structure InspectConfig where
  maxTextRanges : Nat := 120
deriving DecidableEq, Repr, Inhabited

structure EditorConfig where
  /-- one level of indentation of inserted children -/
  indentUnit : String := "  "
deriving DecidableEq, Repr, Inhabited

structure Config where
  parser : ParserConfig := {}
  files : FilesConfig := {}
  utility : UtilityConfig := {}
  inspect : InspectConfig := {}
  editor : EditorConfig := {}
deriving DecidableEq, Repr, Inhabited

/-- why settings are refused -/
inductive ConfigError where
  | malformed (fault : Json.Fault) (line column : Nat)
  | zero (field : String)
deriving DecidableEq, Repr

def ConfigError.message : ConfigError → String
  | .malformed fault line column =>
    "Invalid engine config: " ++ fault.message ++ " at line " ++ toString line ++ " column " ++ toString column
  | .zero field => "Config value `" ++ field ++ "` must be greater than zero"

namespace Config

open Json

/-- greatest whole number of a setting -/
def maxWhole : Nat := Nat.pow 2 64 - 1

private def whole {σ : Type} (type : String) (set : Nat → σ) (c : Cursor) : Read σ :=
  (readUnsigned maxWhole type c).map fun (n, c) => (set n, c)

private def readParser : Cursor → Read ParserConfig :=
  readRecord "ParserConfig" ["loadTimeoutMs", "failureCooldownMs"] {} fun key v c =>
    if key = "loadTimeoutMs" then whole "u64" (fun n => { v with loadTimeoutMs := n }) c
    else whole "u64" (fun n => { v with failureCooldownMs := n }) c

private def readFiles : Cursor → Read FilesConfig :=
  readRecord "VfsConfig" ["maxImportDepth"] {} fun _ _ c => whole "usize" (fun n => { maxImportDepth := n }) c

private def readUtility : Cursor → Read UtilityConfig :=
  readRecord "TailwindConfig" ["maxCandidates", "maxCssBytes", "cacheMaxEntries"] {} fun key v c =>
    if key = "maxCandidates" then whole "usize" (fun n => { v with maxCandidates := n }) c
    else if key = "maxCssBytes" then whole "usize" (fun n => { v with maxCssBytes := n }) c
    else whole "usize" (fun n => { v with cacheMaxEntries := n }) c

private def readInspect : Cursor → Read InspectConfig :=
  readRecord "InspectConfig" ["maxTextRanges"] {} fun _ _ c => whole "usize" (fun n => { maxTextRanges := n }) c

private def readEditor : Cursor → Read EditorConfig :=
  readRecord "EditorConfig" ["indentUnit"] {} fun _ _ c =>
    (readText c).map fun (s, c) => ({ indentUnit := s }, c)

private def readConfig : Cursor → Read Config :=
  readRecord "EngineConfig" ["parser", "vfs", "tailwind", "inspect", "editor"] {} fun key v c =>
    if key = "parser" then (readParser c).map fun (p, c) => ({ v with parser := p }, c)
    else if key = "vfs" then (readFiles c).map fun (p, c) => ({ v with files := p }, c)
    else if key = "tailwind" then (readUtility c).map fun (p, c) => ({ v with utility := p }, c)
    else if key = "inspect" then (readInspect c).map fun (p, c) => ({ v with inspect := p }, c)
    else (readEditor c).map fun (p, c) => ({ v with editor := p }, c)

/-- the settings that must not be zero, in the order in which they are checked -/
def limits (c : Config) : List (String × Nat) :=
  [("parser.loadTimeoutMs", c.parser.loadTimeoutMs), ("vfs.maxImportDepth", c.files.maxImportDepth),
   ("tailwind.maxCandidates", c.utility.maxCandidates), ("tailwind.maxCssBytes", c.utility.maxCssBytes)]

/-- settings from their JSON text -/
def ofJson (text : List Char) : Except ConfigError Config :=
  let read : Except Failure Config := do
    let (c, rest) ← readConfig (.start text)
    readEnd rest
    return c
  match read with
  | .error e =>
    let at_ := lineColumn text e.index
    .error (.malformed e.fault at_.1 at_.2)
  | .ok c =>
    match c.limits.find? fun l => l.2 = 0 with
    | some l => .error (.zero l.1)
    | none => .ok c

end Config

end TsxWorkbench
