/-
Answers of a workbench do not depend on what was asked before. A workbench whose attempts to load succeed keeps to what
its settings and its compiler determine (`Settled`): backends are unloaded or the ones of the factory, a kept scan is
the scan of its source, and the style cache holds what the compiler gives. An operation has the same answer on two
settled workbenches with the same settings and leaves both settled (`run_agree`), so the operations of a session answer
as each does on any settled workbench (`session_eq_map`), a new one for instance (`session_history_independent`).
-/
import TsxWorkbench.Proofs.State.StyleCache
import TsxWorkbench.Proofs.Text.Sorting
import TsxWorkbench.Workbench

namespace TsxWorkbench

open Text State Analysis

/-! ## Backends -/

namespace State

variable {α : Type}

/-- a loader whose attempts all give one value, and which holds that value or nothing -/
structure Loader.Gives (l : Loader α) (a : α) : Prop where
  outcome : ∀ n, (l.factory n).outcome = .value a
  state : l.state = .idle ∨ l.state = .ready a

theorem Loader.Gives.reset {l : Loader α} {a : α} (h : l.Gives a) : l.reset.Gives a := ⟨h.outcome, .inl rfl⟩

/-- a loader whose attempts succeed gives its value, from an attempt or as it was kept -/
theorem Loader.Gives.get {l : Loader α} {a : α} (h : l.Gives a) (nowMs : Nat) :
    ∃ l' : Loader α, l.get nowMs = (.ok a, l') ∧ l'.Gives a := by
  unfold Loader.get Loader.held?
  rcases h.state with hstate | hstate
  · rw [hstate]
    dsimp only
    rw [h.outcome]
    exact ⟨_, rfl, h.outcome, .inr rfl⟩
  · rw [hstate]
    exact ⟨l, rfl, h⟩

variable {κ : Type} [BEq κ] [LawfulBEq κ]

/-- a memo that keeps only values of a function -/
def Memo.Holds (m : Memo κ α) (f : κ → α) : Prop := ∀ key a, m.get? key = some a → a = f key

/-- the value of a key is that of the function, whether it was kept or not -/
theorem Memo.Holds.getOrCompute {m : Memo κ α} {f : κ → α} (h : m.Holds f) (key : κ) :
    ∃ m' : Memo κ α, (m.getOrCompute key fun _ => f key) = (f key, m') ∧ m'.Holds f := by
  unfold Memo.getOrCompute
  cases hget : m.get? key with
  | some a =>
    obtain rfl := h key a hget
    exact ⟨m, rfl, h⟩
  | none =>
    refine ⟨_, rfl, fun other a hother => ?_⟩
    unfold Memo.get? at hother
    dsimp only at hother
    split at hother
    · rename_i hkey
      cases hother
      rw [eq_of_beq hkey]
    · cases hother

end State

/-! ## Classes of a module -/

/-- class tokens are words, so none of them holds a space -/
theorem unspaced_candidates (m : Syntax.Module) : Unspaced ((candidates m).map String.toList) := by
  intro w hw hspace
  obtain ⟨token, htoken, rfl⟩ := List.mem_map.1 hw
  obtain ⟨n, -, hn⟩ := List.mem_flatMap.1 (mem_sortedTexts.1 htoken)
  unfold classTokens at hn
  split at hn
  · split at hn
    · rename_i value _
      cases htext : value.bind attributeText? with
      | none => simp [htext] at hn
      | some s =>
        rw [htext] at hn
        obtain ⟨word, hword, rfl⟩ := List.mem_map.1 hn
        rw [String.toList_ofList] at hspace
        exact absurd (isBlank_of_mem_words hword ' ' hspace) (by decide)
    · simp at hn
  · simp at hn

/-! ## Settled workbenches -/

namespace Workbench

/-- a workbench that keeps nothing but what its settings and its compiler determine -/
structure Settled (config : Config) (compile : Compiler) (w : Workbench) : Prop where
  config_eq : w.config = config
  parser : w.parser.Gives ()
  compiler : w.compiler.Gives compile
  scans : w.scans.Holds fun source => Files.scanWithDepth source config.files.maxImportDepth
  styles : w.styles.Faithful compile config.utility.maxCssBytes

variable {config : Config} {compile : Compiler} {w v : Workbench}

theorem settled_withCompiler (config : Config) {factory : Nat → Attempt Compiler}
    (h : ∀ n, (factory n).outcome = .value compile) : Settled config compile (withCompiler config factory) where
  config_eq := rfl
  parser := ⟨fun _ => rfl, .inl rfl⟩
  compiler := ⟨h, .inl rfl⟩
  scans := fun _ _ hget => by cases hget
  styles := StyleCache.faithful_empty _ _ _

theorem Settled.reset (h : Settled config compile w) : Settled config compile w.reset where
  config_eq := h.config_eq
  parser := h.parser.reset
  compiler := h.compiler.reset
  scans := fun _ _ hget => by cases hget
  styles := StyleCache.Faithful.reset _

/-! ## Steps -/

/-- a scan is that of the source, whether it was kept or not -/
theorem Settled.scan (h : Settled config compile w) (source : List Char) : ∃ w', Settled config compile w' ∧
    w.scan source = (Files.scanWithDepth source config.files.maxImportDepth, w') := by
  obtain ⟨scans, hscans, hholds⟩ := h.scans.getOrCompute source
  unfold Workbench.scan
  rw [h.config_eq, hscans]
  refine ⟨_, ?_, rfl⟩
  exact ⟨rfl, h.parser, h.compiler, hholds, h.styles⟩

/-- what a list of classes compiles to without anything kept -/
def freshStyles (config : Config) (compile : Compiler) (classes : List (List Char)) :
    Except WorkbenchError (List Char) :=
  (compileCached compile (.empty (clearPast config.utility.cacheMaxEntries)) config.utility classes).answer.mapError
    .style

/-- the style sheet of a list of classes does not depend on what is kept -/
theorem Settled.compileStyles (h : Settled config compile w) (nowMs : Nat) {classes : List (List Char)}
    (hclasses : Unspaced classes) : ∃ w', Settled config compile w' ∧
      w.compileStyles nowMs classes = (freshStyles config compile classes, w') := by
  obtain ⟨compiler, hget, hgives⟩ := h.compiler.get nowMs
  have hstyles : w.styles.Faithful compile w.config.utility.maxCssBytes := h.config_eq ▸ h.styles
  obtain ⟨hanswer, hfaithful⟩ := compileCached_answer hstyles hclasses (clearPast config.utility.cacheMaxEntries)
  rw [h.config_eq] at hanswer hfaithful
  unfold Workbench.compileStyles freshStyles
  rw [hget, h.config_eq, ← hanswer]
  dsimp only
  cases (compileCached compile w.styles config.utility classes).answer with
  | ok css =>
    refine ⟨_, ?_, rfl⟩
    exact ⟨rfl, h.parser, hgives, h.scans, hfaithful⟩
  | error e =>
    refine ⟨_, ?_, rfl⟩
    exact ⟨rfl, h.parser, hgives, h.scans, hfaithful⟩

/-! ## Two workbenches -/

/-- the same answer of two workbenches, both settled afterwards -/
structure Agree {α : Type} (config : Config) (compile : Compiler) (r s : Except WorkbenchError α × Workbench) :
    Prop where
  answer : r.1 = s.1
  left : Settled config compile r.2
  right : Settled config compile s.2

theorem report_agree (hw : Settled config compile w) (hv : Settled config compile v) (t u : Nat) (scan : Files.Scan)
    (m : Syntax.Module) (options : AnalyzeOptions) :
    Agree config compile (w.report t scan m options) (v.report u scan m options) := by
  obtain ⟨w', hw', hwstyles⟩ := hw.compileStyles t (unspaced_candidates m)
  obtain ⟨v', hv', hvstyles⟩ := hv.compileStyles u (unspaced_candidates m)
  unfold report
  rw [hwstyles, hvstyles, hw.config_eq, hv.config_eq]
  dsimp only
  split
  · cases freshStyles config compile ((candidates m).map String.toList) with
    | ok css => exact ⟨rfl, hw', hv'⟩
    | error e => exact ⟨rfl, hw', hv'⟩
  · exact ⟨rfl, hw, hv⟩

/-- the parser is there, so what needs it goes on -/
theorem withParser_agree {α : Type} (hw : Settled config compile w) (hv : Settled config compile v) (t u : Nat)
    {f g : Workbench → Except WorkbenchError α × Workbench}
    (h : ∀ w v, Settled config compile w → Settled config compile v → Agree config compile (f w) (g v)) :
    Agree config compile (w.withParser t f) (v.withParser u g) := by
  obtain ⟨wparser, hwget, hwgives⟩ := hw.parser.get t
  obtain ⟨vparser, hvget, hvgives⟩ := hv.parser.get u
  unfold withParser
  rw [hwget, hvget]
  exact h _ _ ⟨hw.config_eq, hwgives, hw.compiler, hw.scans, hw.styles⟩
    ⟨hv.config_eq, hvgives, hv.compiler, hv.scans, hv.styles⟩

theorem analyze_agree (hw : Settled config compile w) (hv : Settled config compile v) (t u : Nat)
    (source : List Char) (options : AnalyzeOptions) :
    Agree config compile (w.analyze t source options) (v.analyze u source options) := by
  obtain ⟨w', hw', hwscan⟩ := hw.scan source
  obtain ⟨v', hv', hvscan⟩ := hv.scan source
  unfold analyze
  rw [hwscan, hvscan]
  refine withParser_agree hw' hv' t u fun w v hw hv => ?_
  split
  · exact ⟨rfl, hw, hv⟩
  · exact report_agree hw hv t u _ _ options

/-- **One operation.** Two settled workbenches with the same settings and the same compiler answer an operation alike,
and stay settled. -/
theorem run_agree (hw : Settled config compile w) (hv : Settled config compile v) (t u : Nat) (op : Operation) :
    Agree config compile (w.run t op) (v.run u op) := by
  cases op with
  | scan source =>
    obtain ⟨w', hw', hwscan⟩ := hw.scan source
    obtain ⟨v', hv', hvscan⟩ := hv.scan source
    dsimp only [run]
    rw [hwscan, hvscan]
    exact ⟨rfl, hw', hv'⟩
  | analyze source options =>
    have hagree := analyze_agree hw hv t u source options
    exact ⟨congrArg (Except.map WorkbenchAnswer.report) hagree.answer, hagree.left, hagree.right⟩
  | insert source point child =>
    dsimp only [run]
    rw [hw.config_eq, hv.config_eq]
    exact withParser_agree hw hv t u fun w v hw hv => ⟨rfl, hw, hv⟩
  | style source point update =>
    dsimp only [run]
    rw [hw.config_eq, hv.config_eq]
    exact withParser_agree hw hv t u fun w v hw hv => ⟨rfl, hw, hv⟩
  | move source point dx dy =>
    dsimp only [run]
    rw [hw.config_eq, hv.config_eq]
    exact withParser_agree hw hv t u fun w v hw hv => ⟨rfl, hw, hv⟩
  | inspect source =>
    dsimp only [run]
    apply withParser_agree hw hv
    intro w v hw hv
    rw [hw.config_eq, hv.config_eq]
    exact ⟨rfl, hw, hv⟩
  | reset => exact ⟨rfl, hw.reset, hv.reset⟩

/-! ## Sessions -/

/-- answers of operations, each at its time, that one workbench carries out one after the other -/
def session (w : Workbench) : List (Nat × Operation) → List (Except WorkbenchError WorkbenchAnswer)
  | [] => []
  | (nowMs, op) :: rest => (w.run nowMs op).1 :: (w.run nowMs op).2.session rest

/-- a settled workbench answers the operations of a session as any other settled workbench answers each of them -/
theorem session_eq_map (hw : Settled config compile w) (hv : Settled config compile v) (u : Nat)
    (ops : List (Nat × Operation)) : w.session ops = ops.map fun o => (v.run u o.2).1 := by
  induction ops generalizing w with
  | nil => rfl
  | cons o rest ih =>
    have hagree := run_agree hw hv o.1 u o.2
    rw [session, List.map_cons, hagree.answer, ih hagree.left]

/-- **Answers do not depend on history.** Whatever the settings, if all attempts to load the compiler give the same
compiler, the operations of a session on one workbench, at any times, answer as each of them does alone on a new
workbench with these settings, errors included. -/
theorem session_history_independent (config : Config) (compile : Compiler) (factory : Nat → Attempt Compiler)
    (h : ∀ n, (factory n).outcome = .value compile) (ops : List (Nat × Operation)) (nowMs : Nat) :
    (withCompiler config factory).session ops = ops.map fun o => ((withCompiler config factory).run nowMs o.2).1 :=
  session_eq_map (settled_withCompiler config h) (settled_withCompiler config h) nowMs ops

/-- a source with two classes -/
def styledElement : List Char := "<a className=\"p-4 flex\"></a>".toList

/-- a source is analyzed again after a reset and after another one, with a limit that allows for one class only -/
theorem session_history_independent_limited :
    (new { utility := { maxCandidates := 1 } }).session
        [(0, .analyze styledElement ⟨true, true⟩), (1, .scan []), (2, .analyze styledElement ⟨false, true⟩),
          (3, .reset), (3, .analyze styledElement ⟨true, false⟩)] =
      [(0, Operation.analyze styledElement ⟨true, true⟩), (1, .scan []), (2, .analyze styledElement ⟨false, true⟩),
          (3, .reset), (3, .analyze styledElement ⟨true, false⟩)].map fun o =>
        ((new { utility := { maxCandidates := 1 } }).run 7 o.2).1 :=
  session_history_independent { utility := { maxCandidates := 1 } } Utility.Machine.compile
    (fun _ => ⟨.value Utility.Machine.compile, 0⟩) (fun _ => rfl) _ 7

end Workbench

end TsxWorkbench
