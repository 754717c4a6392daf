/-
Risky constructs of a module: code made from strings, raw markup, script addresses, and imports from outside the
allowed modules. Every node is looked at on its own, except for those below an import declaration, where the scan stops;
the issues are sorted by position.
-/
import TsxWorkbench.Analysis.StaticValue

namespace TsxWorkbench.Analysis

open Syntax Text Number

inductive IssueKind where
  | eval
  | functionConstructor
  | dangerouslySetInnerHtml
  | javascriptUrl
  | htmlAssignment
  | documentWrite
  | untrustedImport
deriving DecidableEq, Repr, Inhabited

def IssueKind.name : IssueKind → String
  | .eval => "eval"
  | .functionConstructor => "functionConstructor"
  | .dangerouslySetInnerHtml => "dangerouslySetInnerHtml"
  | .javascriptUrl => "javascriptUrl"
  | .htmlAssignment => "htmlAssignment"
  | .documentWrite => "documentWrite"
  | .untrustedImport => "untrustedImport"

/-- a risk that a node carries -/
structure Risk where
  kind : IssueKind
  message : String
deriving DecidableEq, Repr, Inhabited

/-- a risk at its place -/
structure Issue where
  kind : IssueKind
  message : String
  position : Position
deriving DecidableEq, Repr, Inhabited

/-! ## Imports -/

/-- packages that a snippet may import, with all that is below them -/
def allowedPackages : List String := ["react", "react-dom"]

/-- a relative path, an allowed package or a path below one -/
def isAllowedImport (source : String) : Bool :=
  "./".toList.isPrefixOf source.toList || "../".toList.isPrefixOf source.toList ||
    allowedPackages.any fun package => source == package || (package ++ "/").toList.isPrefixOf source.toList

/-- risk of an import -/
def importRisks (source : String) : List Risk :=
  if isAllowedImport source then []
  else [⟨.untrustedImport, "import of \x60" ++ source ++ "\x60 is outside the allowed modules"⟩]

/-! ## Risks of a node -/

/-- name that an expression is -/
def nameOf? (n : Node) : Option String :=
  match unwrap n with
  | .ident _ name => some name
  | _ => none

/-- name of a property, written after a dot or as a string in brackets -/
def propertyName? : Node → Option String
  | .ident _ name => some name
  | .computed _ inner =>
    match unwrap inner with
    | .strLit _ s => some s
    | _ => none
  | _ => none

/-- risks of a call -/
def callRisks (callee : Node) : List Risk :=
  match unwrap callee with
  | .ident _ name =>
    if name = "eval" then [⟨.eval, "\x60eval\x60 executes arbitrary strings as code"⟩]
    else if name = "Function" then [⟨.functionConstructor, "\x60Function\x60 builds code from strings"⟩]
    else []
  | .member _ base property =>
    let name := propertyName? property
    if nameOf? base = some "document" ∧ (name = some "write" ∨ name = some "writeln") then
      [⟨.documentWrite, "\x60document.write\x60 injects raw markup"⟩]
    else []
  | _ => []

/-- risks of an assignment, told by its target -/
def assignmentRisks : Node → List Risk
  | .member _ _ property =>
    match propertyName? property with
    | some name =>
      if name = "innerHTML" ∨ name = "outerHTML" then
        [⟨.htmlAssignment, "assigning \x60" ++ name ++ "\x60 injects raw markup"⟩]
      else []
    | none => []
  | _ => []

/-- a control character: the codes below U+0020 and those from U+007F to U+009F -/
def isControl (c : Char) : Bool := c.toNat < 0x20 || (0x7F ≤ c.toNat && c.toNat ≤ 0x9F)

/-- an address that runs a script, in any letter case and with any blanks and control characters in it -/
def isScriptAddress (address : String) : Bool :=
  "javascript:".toList.isPrefixOf (lowerAscii (address.toList.filter fun c => !isBlank c && !isControl c))

/-- risks of an attribute -/
def attributeRisks (name : String) (value : Option Node) : List Risk :=
  let markup := if name = "dangerouslySetInnerHTML" then
      [⟨.dangerouslySetInnerHtml, "\x60dangerouslySetInnerHTML\x60 renders unescaped markup"⟩]
    else []
  let script := if (value.bind attributeText?).any isScriptAddress then
      [⟨.javascriptUrl, "\x60" ++ name ++ "\x60 holds a javascript: URL"⟩]
    else []
  markup ++ script

/-- an argument without the dots before it -/
def withoutSpread : Node → Node
  | .spread _ inner => inner
  | n => n

/-- risks that a node carries by itself -/
def risksOf : Node → List Risk
  | .importFrom _ source _ => importRisks source
  | .importCall _ (first :: _) => ((staticText? (withoutSpread first)).map importRisks).getD []
  | .call _ callee _ _ => callRisks callee
  | .construct _ callee _ _ =>
    if nameOf? callee = some "Function" then
      [⟨.functionConstructor, "\x60new Function\x60 builds code from strings"⟩]
    else []
  | .assign _ target _ => assignmentRisks target
  | .attr _ name value => attributeRisks name value
  | _ => []

/-! ## Issues of a module -/

/-- an import declaration, where the scan stops: it does not look at the options of the import -/
def isImportDeclaration : Node → Bool
  | .importFrom .. => true
  | _ => false

/-- the nodes that the scan looks at -/
def scannedNodes (m : Module) : List Node := m.items.flatMap (Node.preorderUntil isImportDeclaration)

/-- risks of a node, each at the start of the node -/
def issuesOf (source : List Char) (n : Node) : List Issue :=
  (risksOf n).map fun risk => ⟨risk.kind, risk.message, position source (n.span.clamp (byteLen source)).lo⟩

/-- issues of a module that was read from a source, in reading order; where two start together, the outer one and the
one found first come first -/
def securityIssues (source : List Char) (m : Module) : List Issue :=
  ((scannedNodes m).flatMap (issuesOf source)).mergeSort fun a b => a.position.atOrBefore b.position

end TsxWorkbench.Analysis
