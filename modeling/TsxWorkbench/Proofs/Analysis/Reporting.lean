/-
What the scan of a module reports. `Meets` says when a node meets a risk, with the message; parentheses and type
assertions count for nothing where `Wraps` stands. The target of an assignment is looked at as it is written.

- `mem_risksOf`: the risks that a node carries are those that it meets.
- `securityIssues_report`: there is one issue for each pair of a place that the scan comes to and a risk that the node
  there meets, at the start of the node, and the issues stand in reading order. The scan comes to every place in the
  module, except for those below an import declaration (`import_options_unreported`).
- `imports_allowed_or_reported`: a module that is imported, by a declaration or by a dynamic import that the scan comes
  to, is allowed or reported; what is exported from another module is not looked at (`reexport_unreported`).
-/
import Mathlib.Data.List.Forall2
import Mathlib.Data.List.Nodup
import TsxWorkbench.Analysis.Security
import TsxWorkbench.Proofs.Analysis.StaticText
import TsxWorkbench.Proofs.Syntax.Parser
import TsxWorkbench.Proofs.Syntax.Place
import TsxWorkbench.Proofs.Text.Innermost

namespace TsxWorkbench.Analysis

open Syntax Text

/-! ## Allowed modules -/

/-- a relative path, an allowed package, or a path below one -/
def Allowed (source : String) : Prop :=
  (∃ rest, source = "./" ++ rest) ∨ (∃ rest, source = "../" ++ rest) ∨
    ∃ package ∈ allowedPackages, source = package ∨ ∃ rest, source = package ++ "/" ++ rest

theorem isPrefixOf_toList_iff (start s : String) :
    start.toList.isPrefixOf s.toList = true ↔ ∃ rest, s = start ++ rest := by
  rw [List.isPrefixOf_iff_prefix]
  constructor
  · rintro ⟨rest, hrest⟩
    exact ⟨String.ofList rest, String.toList_inj.1 (by rw [String.toList_append, String.toList_ofList, hrest])⟩
  · rintro ⟨rest, rfl⟩
    exact ⟨rest.toList, (String.toList_append).symm⟩

theorem isAllowedImport_iff (source : String) : isAllowedImport source = true ↔ Allowed source := by
  simp only [isAllowedImport, Allowed, Bool.or_eq_true, List.any_eq_true, beq_iff_eq, isPrefixOf_toList_iff, or_assoc]

/-! ## Risks of a node -/

/-- a property has a name: a word after a dot, or a string in brackets -/
inductive Names : Node → String → Prop
  | dotted (span : Span) (name : String) : Names (.ident span name) name
  | bracketed {span inside : Span} {inner : Node} {name : String} (h : Wraps walkDepth inner (.strLit inside name)) :
      Names (.computed span inner) name

/-- an address that runs a script: without blanks and control characters it starts with the scheme, in any letter
case -/
def RunsScript (address : String) : Prop :=
  ∃ scheme rest, address.toList.filter (fun c => !isBlank c && !isControl c) = scheme ++ rest ∧
    Number.lowerAscii scheme = "javascript:".toList

/-- the risk of an import from outside the allowed modules -/
def untrusted (specifier : String) : Risk :=
  ⟨.untrustedImport, "import of \x60" ++ specifier ++ "\x60 is outside the allowed modules"⟩

/-- a node imports a module whose name is known: by a declaration, or by a call with a text that the source tells -/
inductive Imports : Node → String → Prop
  | declaration (span : Span) (specifier : String) (options : Option Node) :
      Imports (.importFrom span specifier options) specifier
  | dynamic {span : Span} {first : Node} {rest : List Node} {specifier : String}
      (h : staticText? (withoutSpread first) = some specifier) : Imports (.importCall span (first :: rest)) specifier

/-- a node meets a risk by itself -/
inductive Meets : Node → Risk → Prop
  | eval {span name : Span} {callee : Node} {args types : List Node} (h : Wraps walkDepth callee (.ident name "eval")) :
      Meets (.call span callee args types) ⟨.eval, "\x60eval\x60 executes arbitrary strings as code"⟩
  | function {span name : Span} {callee : Node} {args types : List Node}
      (h : Wraps walkDepth callee (.ident name "Function")) :
      Meets (.call span callee args types) ⟨.functionConstructor, "\x60Function\x60 builds code from strings"⟩
  | construct {span name : Span} {callee : Node} {args types : List Node}
      (h : Wraps walkDepth callee (.ident name "Function")) :
      Meets (.construct span callee args types) ⟨.functionConstructor, "\x60new Function\x60 builds code from strings"⟩
  | write {span access object : Span} {callee base property : Node} {name : String} {args types : List Node}
      (hcallee : Wraps walkDepth callee (.member access base property))
      (hbase : Wraps walkDepth base (.ident object "document")) (hproperty : Names property name)
      (hname : name = "write" ∨ name = "writeln") :
      Meets (.call span callee args types) ⟨.documentWrite, "\x60document.write\x60 injects raw markup"⟩
  | assignment {span access : Span} {base property value : Node} {name : String} (hproperty : Names property name)
      (hname : name = "innerHTML" ∨ name = "outerHTML") :
      Meets (.assign span (.member access base property) value)
        ⟨.htmlAssignment, "assigning \x60" ++ name ++ "\x60 injects raw markup"⟩
  | markup (span : Span) (value : Option Node) :
      Meets (.attr span "dangerouslySetInnerHTML" value)
        ⟨.dangerouslySetInnerHtml, "\x60dangerouslySetInnerHTML\x60 renders unescaped markup"⟩
  | script {span : Span} {name address : String} {value : Node} (hvalue : attributeText? value = some address)
      (haddress : RunsScript address) :
      Meets (.attr span name (some value)) ⟨.javascriptUrl, "\x60" ++ name ++ "\x60 holds a javascript: URL"⟩
  | imported {n : Node} {specifier : String} (h : Imports n specifier) (hother : ¬Allowed specifier) :
      Meets n (untrusted specifier)

theorem nameOf?_eq_some {n : Node} {name : String} :
    nameOf? n = some name ↔ ∃ span, Wraps walkDepth n (.ident span name) := by
  have hwraps (span : Span) : Wraps walkDepth n (.ident span name) ↔ unwrap n = .ident span name := (unwrap_eq_iff rfl).symm
  simp only [hwraps, nameOf?]
  split
  · rename_i span found heq
    simp [heq]
  · rename_i hother
    simp only [reduceCtorEq, false_iff, not_exists]
    exact fun span h => hother span name h

theorem propertyName?_eq_some {p : Node} {name : String} : propertyName? p = some name ↔ Names p name := by
  constructor
  · intro h
    unfold propertyName? at h
    split at h
    · cases h
      exact .dotted _ name
    · split at h
      · rename_i heq
        cases h
        exact .bracketed ((unwrap_eq_iff rfl).1 heq)
      · cases h
    · cases h
  · rintro (_ | h)
    · rfl
    · rw [propertyName?, (unwrap_eq_iff rfl).2 h]

theorem isScriptAddress_iff (address : String) : isScriptAddress address = true ↔ RunsScript address := by
  rw [isScriptAddress, List.isPrefixOf_iff_prefix, RunsScript]
  constructor
  · rintro ⟨rest, hrest⟩
    obtain ⟨scheme, tail, heq, hscheme, -⟩ := List.map_eq_append_iff.1 hrest.symm
    exact ⟨scheme, tail, heq, hscheme⟩
  · rintro ⟨scheme, rest, heq, hscheme⟩
    exact ⟨Number.lowerAscii rest, by rw [heq, ← hscheme]; exact List.map_append.symm⟩

theorem mem_importRisks {specifier : String} {risk : Risk} :
    risk ∈ importRisks specifier ↔ ¬Allowed specifier ∧ risk = untrusted specifier := by
  rw [← isAllowedImport_iff, importRisks]
  split <;> simp [*, untrusted]

section

variable {span : Span} {callee target value : Node} {args types : List Node} {name : String} {risk : Risk}

theorem mem_callRisks : risk ∈ callRisks callee ↔ Meets (.call span callee args types) risk := by
  constructor
  · intro h
    unfold callRisks at h
    split at h
    · rename_i found heq
      have hcallee : Wraps walkDepth callee (.ident _ found) := (unwrap_eq_iff rfl).1 heq
      split_ifs at h with heval hfunction
      · subst heval
        obtain rfl := List.mem_singleton.1 h
        exact .eval hcallee
      · subst hfunction
        obtain rfl := List.mem_singleton.1 h
        exact .function hcallee
      · cases h
    · rename_i base property heq
      have hcallee : Wraps walkDepth callee (.member _ base property) := (unwrap_eq_iff rfl).1 heq
      dsimp only at h
      split_ifs at h with hwrite
      · obtain ⟨hdocument, hname⟩ := hwrite
        obtain ⟨_, hbase⟩ := nameOf?_eq_some.1 hdocument
        obtain rfl := List.mem_singleton.1 h
        rcases hname with hname | hname
        · exact .write hcallee hbase (propertyName?_eq_some.1 hname) (.inl rfl)
        · exact .write hcallee hbase (propertyName?_eq_some.1 hname) (.inr rfl)
      · cases h
    · cases h
  · intro h
    cases h with
    | eval h => simp [callRisks, (unwrap_eq_iff rfl).2 h]
    | function h => simp [callRisks, (unwrap_eq_iff rfl).2 h]
    | write hcallee hbase hproperty hname =>
      have hdocument := nameOf?_eq_some.2 ⟨_, hbase⟩
      rcases hname with rfl | rfl <;>
        simp [callRisks, (unwrap_eq_iff rfl).2 hcallee, hdocument, propertyName?_eq_some.2 hproperty]
    | imported h => cases h

theorem mem_assignmentRisks : risk ∈ assignmentRisks target ↔ Meets (.assign span target value) risk := by
  constructor
  · intro h
    unfold assignmentRisks at h
    split at h
    · split at h
      · rename_i hname
        split_ifs at h with hmarkup
        · obtain rfl := List.mem_singleton.1 h
          exact .assignment (propertyName?_eq_some.1 hname) hmarkup
        · cases h
      · cases h
    · cases h
  · intro h
    cases h with
    | assignment hproperty hname => simp [assignmentRisks, propertyName?_eq_some.2 hproperty, hname]
    | imported h => cases h

theorem mem_attributeRisks {value : Option Node} : risk ∈ attributeRisks name value ↔ Meets (.attr span name value) risk := by
  rw [attributeRisks, List.mem_append]
  constructor
  · rintro (h | h)
    · split_ifs at h with hname
      · subst hname
        obtain rfl := List.mem_singleton.1 h
        exact .markup span value
      · cases h
    · split_ifs at h with hscript
      · obtain rfl := List.mem_singleton.1 h
        obtain ⟨address, haddress, hruns⟩ := (Option.any_eq_true _ _).1 hscript
        obtain ⟨value, rfl, hvalue⟩ := Option.bind_eq_some_iff.1 haddress
        exact .script hvalue ((isScriptAddress_iff address).1 hruns)
      · cases h
  · intro h
    cases h with
    | markup => exact .inl (by rw [if_pos rfl]; exact List.mem_singleton_self _)
    | @script _ _ address value hvalue haddress =>
      have hscript : ((some value).bind attributeText?).any isScriptAddress = true := by
        rw [Option.bind_some, hvalue, Option.any_some, (isScriptAddress_iff _).2 haddress]
      exact .inr (by rw [if_pos hscript]; exact List.mem_singleton_self _)
    | imported h => cases h

theorem mem_constructRisks : risk ∈ risksOf (.construct span callee args types) ↔
    Meets (.construct span callee args types) risk := by
  rw [risksOf]
  constructor
  · intro h
    split_ifs at h with hname
    · obtain ⟨_, hcallee⟩ := nameOf?_eq_some.1 hname
      obtain rfl := List.mem_singleton.1 h
      exact .construct hcallee
    · cases h
  · intro h
    cases h with
    | construct h => simp [nameOf?_eq_some.2 ⟨_, h⟩]
    | imported h => cases h

/-- a dynamic import meets a risk if the source tells its text, and the module of that name is not allowed -/
theorem mem_importCallRisks : risk ∈ risksOf (.importCall span args) ↔ Meets (.importCall span args) risk := by
  constructor
  · intro h
    unfold risksOf at h
    cases args with
    | nil => cases h
    | cons first rest =>
      cases htext : staticText? (withoutSpread first) with
      | none => simp [htext] at h
      | some specifier =>
        simp only [htext, Option.map_some, Option.getD_some] at h
        obtain ⟨hother, rfl⟩ := mem_importRisks.1 h
        exact .imported (.dynamic htext) hother
  · intro h
    cases h with
    | imported h hother =>
      cases h with
      | dynamic h => simpa [risksOf, h] using mem_importRisks.2 ⟨hother, rfl⟩

theorem mem_risksOf {n : Node} : risk ∈ risksOf n ↔ Meets n risk := by
  cases n with
  | importFrom span specifier options =>
    refine mem_importRisks.trans ⟨?_, fun h => ?_⟩
    · rintro ⟨hother, rfl⟩
      exact .imported (.declaration span specifier options) hother
    · cases h with
      | imported h hother =>
        cases h
        exact ⟨hother, rfl⟩
  | importCall => exact mem_importCallRisks
  | call => exact mem_callRisks
  | construct => exact mem_constructRisks
  | assign => exact mem_assignmentRisks
  | attr => exact mem_attributeRisks
  | _ =>
    refine ⟨fun h => absurd h List.not_mem_nil, fun h => ?_⟩
    cases h with
    | imported h => cases h

end

theorem nodup_importRisks (specifier : String) : (importRisks specifier).Nodup := by
  unfold importRisks
  split
  · exact .nil
  · exact List.nodup_singleton _

/-- a node carries each risk once -/
theorem nodup_risksOf (n : Node) : (risksOf n).Nodup := by
  unfold risksOf
  split
  · exact nodup_importRisks _
  · cases staticText? _ with
    | none => exact .nil
    | some specifier => exact nodup_importRisks specifier
  · unfold callRisks
    split
    · split_ifs <;> simp
    · dsimp only
      split_ifs <;> simp
    · exact .nil
  · split_ifs <;> simp
  · unfold assignmentRisks
    split
    · split
      · split_ifs <;> simp
      · exact .nil
    · exact .nil
  · unfold attributeRisks
    refine List.nodup_append.2 ⟨?_, ?_, fun a ha b hb => ?_⟩
    · split_ifs <;> simp
    · split_ifs <;> simp
    · split_ifs at ha hb
      · rw [List.mem_singleton.1 ha, List.mem_singleton.1 hb]
        exact fun heq => by cases congrArg Risk.kind heq
      all_goals first
        | exact absurd ha List.not_mem_nil
        | exact absurd hb List.not_mem_nil
  · exact .nil

/-! ## Issues of a module -/

/-- a place that the scan comes to: it does not stand below an import declaration -/
def Scanned (m : Module) (place : List Nat) : Prop := ¬m.Below isImportDeclaration place

/-- the issue of a risk, at the start of the node that meets it -/
def issueAt (source : List Char) (n : Node) (risk : Risk) : Issue :=
  ⟨risk.kind, risk.message, position source (n.span.clamp (byteLen source)).lo⟩

/-- the places that the scan comes to, with what stands there -/
def scannedPlaces (m : Module) : List (List Nat × Node) :=
  (forestWalk m.items).filter fun e => isOpenForest isImportDeclaration m.items e.1

/-- the risks that are met in a module with their places, each with its issue -/
def findings (source : List Char) (m : Module) : List ((List Nat × Risk) × Issue) :=
  (scannedPlaces m).flatMap fun e => (risksOf e.2).map fun risk => ((e.1, risk), issueAt source e.2 risk)

variable {source : List Char} {m : Module}

theorem mem_scannedPlaces {place : List Nat} {n : Node} :
    (place, n) ∈ scannedPlaces m ↔ m.at? place = some n ∧ Scanned m place := by
  rw [scannedPlaces, List.mem_filter, mem_forestWalk, Module.isOpenForest_iff]
  rfl

theorem map_snd_scannedPlaces (m : Module) : (scannedPlaces m).map Prod.snd = scannedNodes m :=
  map_snd_forestWalk_until isImportDeclaration m.items

theorem mem_findings {place : List Nat} {risk : Risk} {issue : Issue} :
    ((place, risk), issue) ∈ findings source m ↔
      ∃ n, m.at? place = some n ∧ Scanned m place ∧ Meets n risk ∧ issue = issueAt source n risk := by
  simp only [findings, List.mem_flatMap, List.mem_map, Prod.exists, mem_scannedPlaces, mem_risksOf, Prod.mk.injEq]
  constructor
  · rintro ⟨_, n, ⟨hn, hscanned⟩, risk, hmeets, ⟨rfl, rfl⟩, rfl⟩
    exact ⟨n, hn, hscanned, hmeets, rfl⟩
  · rintro ⟨n, hn, hscanned, hmeets, rfl⟩
    exact ⟨place, n, ⟨hn, hscanned⟩, risk, hmeets, ⟨rfl, rfl⟩, rfl⟩

/-- no place meets a risk twice -/
theorem nodup_findings (source : List Char) (m : Module) : ((findings source m).map Prod.fst).Nodup := by
  have hpairs : (findings source m).map Prod.fst =
      (scannedPlaces m).flatMap fun e => (risksOf e.2).map fun risk => (e.1, risk) := by
    simp only [findings, List.map_flatMap, List.map_map, Function.comp_def]
  rw [hpairs]
  refine List.nodup_flatMap.2 ⟨fun e _ => (nodup_risksOf e.2).map fun a b h => (Prod.mk.inj h).2, ?_⟩
  refine ((sorted_forestWalk m.items).filter _).imp fun {a b} hlt => List.disjoint_left.2 fun pair ha hb => ?_
  obtain ⟨_, -, rfl⟩ := List.mem_map.1 ha
  obtain ⟨_, -, heq⟩ := List.mem_map.1 hb
  exact hlt.ne (Prod.mk.inj heq).1.symm

theorem map_snd_findings (source : List Char) (m : Module) :
    (findings source m).map Prod.snd = (scannedNodes m).flatMap (issuesOf source) := by
  rw [← map_snd_scannedPlaces, List.flatMap_map, findings, List.map_flatMap]
  refine List.flatMap_congr fun e _ => ?_
  rw [List.map_map]
  rfl

theorem securityIssues_eq (source : List Char) (m : Module) : securityIssues source m =
    ((findings source m).mergeSort fun a b => a.2.position.atOrBefore b.2.position).map Prod.snd := by
  refine ((List.map_mergeSort (s := fun a b : Issue => a.position.atOrBefore b.position) fun _ _ _ _ => rfl).trans ?_).symm
  rw [map_snd_findings]
  rfl

theorem mem_securityIssues {issue : Issue} : issue ∈ securityIssues source m ↔
    ∃ place n, m.at? place = some n ∧ Scanned m place ∧ ∃ risk, Meets n risk ∧ issue = issueAt source n risk := by
  rw [securityIssues_eq, List.mem_map]
  simp only [List.mem_mergeSort, Prod.exists, mem_findings]
  constructor
  · rintro ⟨place, risk, _, ⟨n, hn, hscanned, hmeets, rfl⟩, rfl⟩
    exact ⟨place, n, hn, hscanned, risk, hmeets, rfl⟩
  · rintro ⟨place, n, hn, hscanned, risk, hmeets, rfl⟩
    exact ⟨place, risk, _, ⟨n, hn, hscanned, hmeets, rfl⟩, rfl⟩

/-- an issue is about a risk that the node at a place meets. It stands where the node starts, as far as that lies in the
source; the nodes of a module that was read lie in the source -/
structure Reported (source : List Char) (m : Module) (pair : List Nat × Risk) (issue : Issue) (n : Node) : Prop where
  stands : m.at? pair.1 = some n
  kind : issue.kind = pair.2.kind
  message : issue.message = pair.2.message
  position : issue.position = position source (n.span.clamp (byteLen source)).lo
  position_of_read : parseModule source = .ok m → issue.position = Text.position source n.span.lo

/-- the issues of a module stand for pairs of a place and a risk, each for one: for all those where the scan comes to the
place and the node there meets the risk, and for nothing else. They are sorted by line and column -/
structure Report (source : List Char) (m : Module) (pairs : List (List Nat × Risk)) (issues : List Issue) : Prop where
  mem_iff : ∀ place risk, (place, risk) ∈ pairs ↔ ∃ n, m.at? place = some n ∧ Scanned m place ∧ Meets n risk
  nodup : pairs.Nodup
  entries : List.Forall₂ (fun pair issue => ∃ n, Reported source m pair issue n) pairs issues
  sorted : issues.Pairwise fun a b => a.position.line < b.position.line ∨
    a.position.line = b.position.line ∧ a.position.column ≤ b.position.column

theorem reported_of_mem_findings {pair : List Nat × Risk} {issue : Issue} (h : (pair, issue) ∈ findings source m) :
    ∃ n, Reported source m pair issue n := by
  obtain ⟨n, hn, -, -, rfl⟩ := mem_findings.1 h
  refine ⟨n, hn, rfl, rfl, rfl, fun hm => ?_⟩
  have hfits := (parseModule_placed hm (mem_of_forestAt? hn)).fits.span
  rw [issueAt, hfits.clamp]

/-- **What is reported.** -/
theorem securityIssues_report (source : List Char) (m : Module) :
    ∃ pairs, Report source m pairs (securityIssues source m) := by
  let sorted := (findings source m).mergeSort fun a b => a.2.position.atOrBefore b.2.position
  have hperm : sorted.Perm (findings source m) := List.mergeSort_perm _ _
  refine ⟨sorted.map Prod.fst, fun place risk => ?_, ?_, ?_, ?_⟩
  · simp only [List.mem_map, Prod.exists, hperm.mem_iff, mem_findings]
    constructor
    · rintro ⟨_, _, _, ⟨n, hn, hscanned, hmeets, rfl⟩, ⟨⟩⟩
      exact ⟨n, hn, hscanned, hmeets⟩
    · rintro ⟨n, hn, hscanned, hmeets⟩
      exact ⟨place, risk, _, ⟨n, hn, hscanned, hmeets, rfl⟩, rfl⟩
  · exact (hperm.map Prod.fst).nodup_iff.2 (nodup_findings source m)
  · rw [securityIssues_eq, List.forall₂_map_left_iff, List.forall₂_map_right_iff, List.forall₂_same]
    exact fun e he => reported_of_mem_findings (hperm.mem_iff.1 he)
  · have hsorted : (securityIssues source m).Pairwise fun a b => a.position.atOrBefore b.position = true := by
      refine List.pairwise_mergeSort (fun a b c hab hbc => ?_) (fun a b => ?_) _
      · rw [Position.atOrBefore_iff] at *
        omega
      · rw [Bool.or_eq_true, Position.atOrBefore_iff, Position.atOrBefore_iff]
        omega
    exact hsorted.imp Position.atOrBefore_iff.1

/-- a source that is read, with a node of some kind in it, and nothing is reported of it -/
theorem exists_unreported (source : List Char) (kind : Node → Bool)
    (h : (parseModule source).toOption.any (fun m => m.preorder.any kind && securityIssues source m == []) = true) :
    ∃ m, parseModule source = .ok m ∧ (∃ n ∈ m.preorder, kind n = true) ∧ securityIssues source m = [] := by
  obtain ⟨m, hm, hboth⟩ := exists_of_toOption_any h
  rw [Bool.and_eq_true, List.any_eq_true, beq_iff_eq] at hboth
  exact ⟨m, hm, hboth⟩

/-! ### Targets in parentheses -/

def parenthesizedTarget : List Char := "(el.innerHTML) = html;".toList

/-- an assignment to the property, with one wrapper around the target -/
def assignsWrapped : Node → Bool
  | .assign _ (.wrapped _ _ (.member _ _ (.ident _ "innerHTML")) _) _ => true
  | _ => false

/-- **Parentheses hide an assignment.** The callee of a call is looked at without the wrappers around it, and the target of
an assignment is not: the markup that is assigned here is not reported. -/
theorem parenthesized_target_unreported : ∃ m, parseModule parenthesizedTarget = .ok m ∧
    (∃ span target value access base property, .assign span target value ∈ m.preorder ∧
      Wraps 1 target (.member access base property) ∧ Names property "innerHTML") ∧
    securityIssues parenthesizedTarget m = [] := by
  obtain ⟨m, hm, ⟨n, hn, hassigns⟩, hnone⟩ := exists_unreported parenthesizedTarget assignsWrapped (by decide +kernel)
  refine ⟨m, hm, ?_, hnone⟩
  unfold assignsWrapped at hassigns
  split at hassigns
  · exact ⟨_, _, _, _, _, _, hn, ⟨le_rfl, rfl⟩, .dotted _ _⟩
  · cases hassigns

/-! ### Options of imports -/

def optionsSource : List Char := "import a from \"./a\" with \x7b x: eval(\"1\") \x7d;".toList

/-- a call of eval by its name -/
def callsEval : Node → Bool
  | .call _ (.ident _ "eval") _ _ => true
  | _ => false

/-- **Options of an import.** The scan stops at an import declaration: code that stands in its options meets a risk and is
not reported. -/
theorem import_options_unreported : ∃ m, parseModule optionsSource = .ok m ∧
    (∃ place n risk, m.at? place = some n ∧ Meets n risk ∧ ¬Scanned m place) ∧ securityIssues optionsSource m = [] := by
  obtain ⟨m, hm, ⟨n, hn, hcalls⟩, hnone⟩ := exists_unreported optionsSource callsEval (by decide +kernel)
  obtain ⟨place, hplace⟩ := Module.mem_preorder_iff.1 hn
  have hmeets : ∃ risk, Meets n risk := by
    unfold callsEval at hcalls
    split at hcalls
    · exact ⟨_, .eval ⟨Nat.zero_le _, rfl⟩⟩
    · cases hcalls
  obtain ⟨risk, hrisk⟩ := hmeets
  refine ⟨m, hm, ⟨place, n, risk, hplace, hrisk, fun hscanned => ?_⟩, hnone⟩
  exact List.not_mem_nil (hnone ▸ mem_securityIssues.2 ⟨place, n, hplace, hscanned, risk, hrisk, rfl⟩)

/-! ## Imports -/

/-- **Imports.** A module that is imported by a declaration, or by a call with a text that the source tells, is allowed or
reported wherever the scan comes to the import, and nothing else is reported as an import. -/
theorem imports_allowed_or_reported (source : List Char) (m : Module) :
    (∀ place n specifier, m.at? place = some n → Scanned m place → Imports n specifier →
      Allowed specifier ∨ issueAt source n (untrusted specifier) ∈ securityIssues source m) ∧
    ∀ issue ∈ securityIssues source m, issue.kind = .untrustedImport →
      ∃ place n specifier, m.at? place = some n ∧ Scanned m place ∧ Imports n specifier ∧ ¬Allowed specifier ∧
        issue = issueAt source n (untrusted specifier) := by
  constructor
  · intro place n specifier hn hscanned himports
    by_cases hallowed : Allowed specifier
    · exact .inl hallowed
    · exact .inr (mem_securityIssues.2 ⟨place, n, hn, hscanned, _, .imported himports hallowed, rfl⟩)
  · intro issue hissue hkind
    obtain ⟨place, n, hn, hscanned, risk, hmeets, rfl⟩ := mem_securityIssues.1 hissue
    cases hmeets with
    | imported himports hother => exact ⟨place, n, _, hn, hscanned, himports, hother, rfl⟩
    | _ => cases hkind

/-- a module that imports a package of its own and one from outside -/
def importingModule : Module := ⟨[.importFrom ⟨0, 15⟩ "react" none, .importFrom ⟨16, 28⟩ "fs" none]⟩

def importingSource : List Char := "import \"react\";\nimport \"fs\";".toList

theorem imports_allowed_or_reported_files :
    issueAt importingSource (.importFrom ⟨16, 28⟩ "fs" none) (untrusted "fs") ∈
        securityIssues importingSource importingModule ∧
      ∀ issue ∈ securityIssues importingSource importingModule, issue.kind = .untrustedImport →
        ∃ place n specifier, importingModule.at? place = some n ∧ Scanned importingModule place ∧ Imports n specifier ∧
          ¬Allowed specifier ∧ issue = issueAt importingSource n (untrusted specifier) := by
  obtain ⟨hreported, honly⟩ := imports_allowed_or_reported importingSource importingModule
  refine ⟨(hreported [1] _ "fs" rfl ?_ (.declaration ⟨16, 28⟩ "fs" none)).resolve_left ?_, honly⟩
  · exact Module.isOpenForest_iff.1 rfl
  · rw [← isAllowedImport_iff]
    decide

/-! ### Modules that are exported from -/

def reexportSource : List Char := "export * from \"fs\";".toList

def exportsAllOf (specifier : String) : Node → Bool
  | .exportAll _ source _ => source == specifier
  | _ => false

/-- **What is exported from another module.** It is loaded as an import is, and the scan does not look at it. -/
theorem reexport_unreported : ∃ m, parseModule reexportSource = .ok m ∧
    (∃ span options, .exportAll span "fs" options ∈ m.preorder) ∧ ¬Allowed "fs" ∧ securityIssues reexportSource m = [] := by
  obtain ⟨m, hm, ⟨n, hn, hexports⟩, hnone⟩ := exists_unreported reexportSource (exportsAllOf "fs") (by decide +kernel)
  refine ⟨m, hm, ?_, ?_, hnone⟩
  · unfold exportsAllOf at hexports
    split at hexports
    · exact ⟨_, _, beq_iff_eq.1 hexports ▸ hn⟩
    · cases hexports
  · rw [← isAllowedImport_iff]
    decide

end TsxWorkbench.Analysis
