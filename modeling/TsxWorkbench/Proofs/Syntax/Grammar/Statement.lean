/-
Statements, imports and exports: what each of their readers reads is in place.
-/
import TsxWorkbench.Proofs.Syntax.Grammar.Declaration
import TsxWorkbench.Syntax.Grammar.Statement

namespace TsxWorkbench.Syntax

open Text Node

variable {source : List Char} {r : Goal → Parse Node} {lo floor : Nat} {s : Reading}

/-! ## Control flow -/

theorem block_reads (hr : Readers source r) : Reads source (block r) := by
  refine .of_here fun s h => ?_
  refine .look rfl (.bind (expectMark_ok h "\x7b") fun _ t₁ ⟨h₁, _⟩ => ?_)
  refine .bind (bodyUntilBrace_nodes (hr.statement false).moves h₁) fun items t₂ ⟨h₂, hitems⟩ => ?_
  exact .look rfl (.pure (h₂.node rfl trivial hitems))

theorem condition_passes (hr : Readers source r) : Passes source (condition r) (Placed source) := by
  intro lo floor s h
  refine .bind (expectMark_ok h "(") fun _ t₁ ⟨h₁, _⟩ => ?_
  refine .bind (hr.expression true h₁) fun test t₂ ⟨h₂, htest⟩ => ?_
  exact .bind (expectMark_ok h₂ ")") fun _ t₃ ⟨h₃, _⟩ => .pure ⟨h₃, htest.placed⟩

theorem ifStatement_reads (hr : Readers source r) (h : At source lo floor s) :
    Ok (ifStatement r lo) s (Read source lo) := by
  refine .bind (expectWord_ok h "if") fun _ t₁ ⟨h₁, _⟩ => ?_
  refine .bind (condition_passes hr h₁) fun test t₂ ⟨h₂, htest⟩ => ?_
  refine .bind (hr.statement false h₂) fun yes t₃ ⟨h₃, hyes⟩ => ?_
  refine .bind (afterWord_nodes "else" (hr.statement false).moves h₃) fun no t₄ ⟨h₄, hno⟩ => ?_
  exact .look rfl (.pure (h₄.node rfl trivial (by simp [htest, hyes.placed, hno])))

theorem whileStatement_reads (hr : Readers source r) (h : At source lo floor s) :
    Ok (whileStatement r lo) s (Read source lo) := by
  refine .bind (advance_ok h) fun _ t₁ h₁ => ?_
  refine .bind (condition_passes hr h₁.state) fun test t₂ ⟨h₂, htest⟩ => ?_
  refine .bind (hr.statement false h₂) fun body t₃ ⟨h₃, hbody⟩ => ?_
  exact .look rfl (.pure (h₃.node rfl trivial (by simp [htest, hbody.placed])))

theorem doStatement_reads (hr : Readers source r) (h : At source lo floor s) :
    Ok (doStatement r lo) s (Read source lo) := by
  refine .bind (expectWord_ok h "do") fun _ t₁ ⟨h₁, _⟩ => ?_
  refine .bind (hr.statement false h₁) fun body t₂ ⟨h₂, hbody⟩ => ?_
  refine .bind (expectWord_ok h₂ "while") fun _ t₃ ⟨h₃, _⟩ => ?_
  refine .bind (condition_passes hr h₃) fun test t₄ ⟨h₄, htest⟩ => ?_
  refine .bind (takeMark_moves ";" h₄) fun _ t₅ ⟨h₅, _⟩ => ?_
  exact .look rfl (.pure (h₅.node rfl trivial (by simp [htest, hbody.placed])))

theorem loopStart_offers (hr : Readers source r) : Offers source (loopStart r) := by
  refine .of_here fun s h => ?_
  refine .look rfl (.ite (fun _ => .pure h) fun _ => .look rfl ?_)
  refine .bind (takeVariableWord_moves h) fun _ t₁ ⟨h₁, _⟩ => .ite (fun _ => ?_) fun _ => ?_
  · exact .bind (variablesFrom_reads hr h₁ false) fun _ _ ht => .pure ht
  · exact .bind (hr.expression false h₁) fun _ _ ht => .pure ht

theorem optionalUntil_moves (hr : Readers source r) (close : String) :
    Moves source (optionalUntil r close) fun found => AllPlaced source found.toList := by
  refine .of_here fun s h => ?_
  refine ifMark_ok h (fun t ht _ => .pure ⟨h.onward ht.state, allPlaced_nil⟩) ?_
  refine .bind ((hr.expression true).moves h) fun n t₁ ⟨h₁, hn⟩ => ?_
  exact .bind (expectMark_moves close h₁) fun _ t₂ ⟨h₂, _⟩ => .pure ⟨h₂, hn.one⟩

theorem targetOf_placed {n : Node} (h : n.Placed source) : (forStatement.targetOf n).Placed source := by
  unfold forStatement.targetOf
  split
  · exact h
  · exact (fits_asTarget h.fits).placed

theorem forStatement_reads (hr : Readers source r) (h : At source lo floor s) :
    Ok (forStatement r lo) s (Read source lo) := by
  refine .bind (expectWord_ok h "for") fun _ t₁ ⟨h₁, _⟩ => ?_
  refine .bind (takeWord_moves "await" h₁) fun _ t₂ ⟨h₂, _⟩ => ?_
  refine .bind (expectMark_ok h₂ "(") fun _ t₃ ⟨h₃, _⟩ => ?_
  refine .bind ((loopStart_offers hr).moves h₃) fun start t₄ ⟨h₄, hstart⟩ => ?_
  extract_lets counted
  have hcounted {t} (h : At source lo lo t) : Ok (counted ()) t (Read source lo) := by
    refine .bind (expectMark_ok h ";") fun _ t₅ ⟨h₅, _⟩ => ?_
    refine .bind (optionalUntil_moves hr ";" h₅) fun test t₆ ⟨h₆, htest⟩ => ?_
    refine .bind (optionalUntil_moves hr ")" h₆) fun update t₇ ⟨h₇, hupdate⟩ => ?_
    refine .bind (hr.statement false h₇) fun body t₈ ⟨h₈, hbody⟩ => ?_
    exact .look rfl (.pure (h₈.node rfl trivial (by simp [hstart, htest, hupdate, hbody.placed])))
  -- a loop over something
  have hover {p : Parse Node} (hp : Reads source p) {left t} (h : At source lo lo t) (hleft : left.Placed source) :
      Ok (p >>= fun right => expectMark ")" >>= fun _ => r (.statement false) >>= fun body => since lo >>= fun span =>
        pure (.other span [forStatement.targetOf left, right, body])) t (Read source lo) := by
    refine .bind (hp h) fun right t₅ ⟨h₅, hright⟩ => ?_
    refine .bind (expectMark_ok h₅ ")") fun _ t₆ ⟨h₆, _⟩ => ?_
    refine .bind (hr.statement false h₆) fun body t₇ ⟨h₇, hbody⟩ => .look rfl (.pure ?_)
    exact h₇.node rfl trivial (by simp [targetOf_placed hleft, hright.placed, hbody.placed])
  cases start with
  | none => exact hcounted h₄
  | some left =>
    have hleft : left.Placed source := hstart left List.mem_cons_self
    refine ifWord_ok h₄ (fun t₅ h₅ _ => hover (hr.assignment true false) h₅.state hleft) ?_
    exact ifWord_ok h₄ (fun t₅ h₅ _ => hover (hr.expression true) h₅.state hleft) (hcounted h₄)

theorem switchCase_reads (hr : Readers source r) : Reads source (switchCase r) := by
  refine .of_here fun s h => ?_
  refine .look rfl ?_
  extract_lets tested
  have htested {test t} (h : At source s.place s.place t) (htest : AllPlaced source test.toList) :
      Ok (tested test) t (Read source s.place) := by
    refine .bind (expectMark_ok h ":") fun _ t₁ ⟨h₁, _⟩ => ?_
    refine .bind (many_nodes (fun lo floor s h => ?_) h₁) fun body t₂ ⟨h₂, hbody⟩ => ?_
    · refine .look rfl (.look rfl (.look rfl (.ite (fun _ => .pure ⟨h, allPlaced_nil⟩) fun _ => ?_)))
      exact .bind ((hr.statement false).moves h) fun n t ⟨ht, hn⟩ => .pure ⟨ht, hn.one⟩
    · exact .look rfl (.pure (h₂.node rfl trivial (by simp [htest, hbody])))
  refine ifWord_ok h (fun t₁ h₁ _ => .look rfl (htested h₁.state allPlaced_nil)) ?_
  refine .bind (expectWord_ok h "case") fun _ t₁ ⟨h₁, _⟩ => ?_
  refine .bind (P := fun test t => At source s.place s.place t ∧ AllPlaced source test.toList) (.map ?_)
    fun test t₂ ht => htested ht.1 ht.2
  exact (hr.expression true h₁).mono fun n t hn => ⟨hn.1, hn.2.placed.one⟩

theorem switchStatement_reads (hr : Readers source r) (h : At source lo floor s) :
    Ok (switchStatement r lo) s (Read source lo) := by
  refine .bind (expectWord_ok h "switch") fun _ t₁ ⟨h₁, _⟩ => ?_
  refine .bind (condition_passes hr h₁) fun value t₂ ⟨h₂, hvalue⟩ => ?_
  refine .bind (expectMark_ok h₂ "\x7b") fun _ t₃ ⟨h₃, _⟩ => ?_
  refine .bind (runUntil_nodes "\x7d" (switchCase_reads hr).moves h₃) fun cases t₄ ⟨h₄, hcases⟩ => ?_
  exact .look rfl (.pure (h₄.node rfl trivial (by simp [hvalue, hcases])))

theorem catchClause_reads (hr : Readers source r) : Reads source (catchClause r) := by
  refine .of_here fun s h => ?_
  refine .look rfl (.bind (expectWord_ok h "catch") fun _ t₁ ⟨h₁, _⟩ => ?_)
  extract_lets caught
  have hcaught {param t} (h : At source s.place s.place t) (hparam : AllPlaced source param.toList) :
      Ok (caught param) t (Read source s.place) := by
    refine .bind (block_reads hr h) fun body t₂ ⟨h₂, hbody⟩ => ?_
    exact .look rfl (.pure (h₂.node rfl trivial (by simp [hparam, hbody.placed])))
  refine ifMark_ok h₁ (fun t₂ h₂ _ => ?_) (.look rfl (hcaught h₁ allPlaced_nil))
  refine .bind (typedTarget_reads hr h₂.state) fun target t₃ ⟨h₃, htarget⟩ => ?_
  exact .bind (expectMark_ok h₃ ")") fun _ t₄ ⟨h₄, _⟩ => .look rfl (hcaught h₄ htarget.placed.one)

theorem tryStatement_reads (hr : Readers source r) (h : At source lo floor s) :
    Ok (tryStatement r lo) s (Read source lo) := by
  refine .bind (expectWord_ok h "try") fun _ t₁ ⟨h₁, _⟩ => ?_
  refine .bind (block_reads hr h₁) fun body t₂ ⟨h₂, hbody⟩ => .look rfl ?_
  refine .bind (given_nodes _ (catchClause_reads hr).moves h₂) fun handler t₃ ⟨h₃, hhandler⟩ => ?_
  refine .bind (afterWord_nodes "finally" (block_reads hr).moves h₃) fun last t₄ ⟨h₄, hlast⟩ => ?_
  exact .look rfl (.pure (h₄.node rfl trivial (by simp [hbody.placed, hhandler, hlast])))

theorem jumpStatement_reads (hr : Readers source r) (h : At source lo floor s) :
    Ok (jumpStatement r lo) s (Read source lo) := by
  refine .bind (advance_ok h) fun _ t₁ h₁ => .look rfl ?_
  refine .bind (given_nodes _ (hr.expression true).moves h₁.state) fun value t₂ ⟨h₂, hvalue⟩ => ?_
  refine .bind (endStatement_moves h₂) fun _ t₃ ⟨h₃, _⟩ => ?_
  exact .look rfl (.pure (h₃.node rfl trivial hvalue))

theorem reservedStatement?_ok (hr : Readers source r) (h : At source s.place floor s) :
    Ok (reservedStatement? r s.token) s (Tried source s.place s) := by
  unfold reservedStatement?
  extract_lets
  split
  · split
    · exact .map (ifStatement_reads hr h)
    · exact .map (whileStatement_reads hr h)
    · exact .map (whileStatement_reads hr h)
    · exact .map (doStatement_reads hr h)
    · exact .map (forStatement_reads hr h)
    · exact .map (switchStatement_reads hr h)
    · exact .map (tryStatement_reads hr h)
    · exact .map (jumpStatement_reads hr h)
    · exact .map (jumpStatement_reads hr h)
    · exact .map (jumpStatement_reads hr h)
    · exact .map (jumpStatement_reads hr h)
    · exact .map (jumpStatement_reads hr h)
    · exact .pure rfl
  · exact .pure rfl

theorem expressionStatement_reads (hr : Readers source r) (h : At source lo floor s) :
    Ok (expressionStatement r lo) s (Read source lo) := by
  refine .bind (hr.expression true h) fun inner t₁ ⟨h₁, hinner⟩ => ?_
  refine .bind (endStatement_moves h₁) fun _ t₂ ⟨h₂, _⟩ => ?_
  exact .look rfl (.pure (h₂.node rfl trivial hinner.placed.one))

/-! ## Imports -/

theorem sourceOptions_moves (hr : Readers source r) :
    Moves source (sourceOptions r) fun options => AllPlaced source options.toList := by
  intro lo floor s h
  refine .look rfl (.look rfl (.look rfl (given_nodes _ (fun _ _ _ h => ?_) h)))
  exact .bind (advance_moves h) fun _ t₁ ⟨h₁, _⟩ => (objectLiteral_reads hr).moves h₁

theorem moduleName_passes : Passes source moduleName fun _ => True := by
  intro lo floor s h
  refine .look rfl ?_
  split
  · exact .bind (stringLiteral_reads h) fun _ t ⟨ht, _⟩ => .pure ⟨ht, trivial⟩
  · exact .bind (anyWord_reads h) fun _ t ⟨ht, _⟩ => .pure ⟨ht, trivial⟩

theorem importName_moves : Moves source importName fun _ => True := by
  intro lo floor s h
  refine .look rfl (.look rfl ?_)
  extract_lets named
  have hnamed {t} (h : At source lo floor t) : Ok (named ()) t fun _ u => At source lo floor u ∧ True := by
    refine .bind (moduleName_passes.moves h) fun _ t₁ ⟨h₁, _⟩ => .bind (takeWord_moves "as" h₁) fun _ t₂ ⟨h₂, _⟩ => ?_
    exact .ite (fun _ => .bind (anyWord_reads.moves h₂) fun _ t₃ ⟨h₃, _⟩ => .pure ⟨h₃, trivial⟩) fun _ =>
      .pure ⟨h₂, trivial⟩
  refine .ite (fun _ => ?_) fun _ => hnamed h
  exact .bind (advance_moves h) fun _ t₁ ⟨h₁, _⟩ => hnamed h₁

theorem importClause_moves : Moves source importClause fun _ => True := by
  intro lo floor s h
  have hall {t} (h : At source lo floor t) : Ok (expectWord "as" >>= fun _ => identifier .expectedName >>= fun _ =>
      pure ()) t fun _ u => At source lo floor u ∧ True :=
    .bind (expectWord_moves "as" h) fun _ t₁ ⟨h₁, _⟩ => .bind ((identifier_reads _).moves h₁) fun _ t₂ ht => .pure ht
  have hnames {t} (h : At source lo floor t) : Ok (itemsUntil "\x7d" importName >>= fun _ => pure ()) t fun _ u =>
      At source lo floor u ∧ True :=
    .bind (itemsUntil_moves "\x7d" importName_moves h) fun _ t₁ ⟨h₁, _⟩ => .pure ⟨h₁, trivial⟩
  refine .bind (takeMark_moves "*" h) fun _ t₁ ⟨h₁, _⟩ => .ite (fun _ => hall h₁) fun _ => ?_
  refine .bind (takeMark_moves "\x7b" h₁) fun _ t₂ ⟨h₂, _⟩ => .ite (fun _ => hnames h₂) fun _ => ?_
  refine .bind ((identifier_reads _).moves h₂) fun _ t₃ ⟨h₃, _⟩ => ?_
  refine .bind (takeMark_moves "," h₃) fun _ t₄ ⟨h₄, _⟩ => .ite (fun _ => ?_) fun _ => .pure ⟨h₄, trivial⟩
  refine .bind (takeMark_moves "*" h₄) fun _ t₅ ⟨h₅, _⟩ => .ite (fun _ => hall h₅) fun _ => ?_
  exact .bind (expectMark_moves "\x7b" h₅) fun _ t₆ ⟨h₆, _⟩ => hnames h₆

theorem importPhase_moves : Moves source importPhase fun _ => True := by
  intro lo floor s h
  refine .look rfl (.look rfl (.look rfl (.ite (fun _ => .look rfl ?_) fun _ => .pure ⟨h, trivial⟩)))
  exact .ite (fun _ => advance_moves h) fun _ => .pure ⟨h, trivial⟩

theorem importAssignment_reads (hr : Readers source r) (h : At source lo floor s) :
    Ok (importAssignment r lo) s (Read source lo) := by
  refine .bind (expectMark_ok h "=") fun _ t₁ ⟨h₁, _⟩ => ?_
  refine .bind (hr.unary h₁) fun value t₂ ⟨h₂, hvalue⟩ => ?_
  refine .bind (endStatement_moves h₂) fun _ t₃ ⟨h₃, _⟩ => ?_
  exact .look rfl (.pure (h₃.node rfl trivial hvalue.placed.one))

/-- an import ends with the name of its source -/
theorem importedFrom_reads (hr : Readers source r) (h : At source lo lo s) (text : String) :
    Ok (importDeclaration.importedFrom r lo text) s (Read source lo) := by
  refine .bind (sourceOptions_moves hr h) fun options t₁ ⟨h₁, hoptions⟩ => ?_
  refine .bind (endStatement_moves h₁) fun _ t₂ ⟨h₂, _⟩ => ?_
  exact .look rfl (.pure (h₂.node rfl trivial hoptions))

theorem importDeclaration_reads (hr : Readers source r) (h : At source lo floor s) :
    Ok (importDeclaration r lo) s (Read source lo) := by
  refine .bind (expectWord_ok h "import") fun _ t₁ ⟨h₁, _⟩ => .look rfl ?_
  split
  · exact .bind (advance_moves h₁) fun _ t₂ ⟨h₂, _⟩ => importedFrom_reads hr h₂ _
  refine .bind (importPhase_moves h₁) fun _ t₂ ⟨h₂, _⟩ => .look rfl (.look rfl (.ite (fun _ => ?_) fun _ => ?_))
  · exact .bind (advance_moves h₂) fun _ t₃ ⟨h₃, _⟩ => importAssignment_reads hr h₃
  · refine .bind (importClause_moves h₂) fun _ t₃ ⟨h₃, _⟩ => ?_
    refine .bind (expectWord_moves "from" h₃) fun _ t₄ ⟨h₄, _⟩ => ?_
    exact .bind (stringLiteral_reads.moves h₄) fun _ t₅ ⟨h₅, _⟩ => importedFrom_reads hr h₅ _

/-! ## Exports -/

theorem exportedName_reads : Reads source exportedName := by
  refine .of_here fun s h => ?_
  refine .look rfl (.look rfl (.look rfl ?_))
  extract_lets named
  have hnamed {typeOnly t} (h : At source s.place s.seen t) : Ok (named typeOnly) t (Read source s.place) := by
    refine .look rfl (.bind (moduleName_passes h) fun _ t₁ ⟨h₁, _⟩ => ?_)
    refine .bind (takeWord_moves "as" h₁) fun _ t₂ ⟨h₂, _⟩ => ?_
    have hnode {exported t} {name : Option String} (h : At source s.place s.place t) :
        Ok (since s.place >>= fun span => pure (.exportName span name exported typeOnly)) t (Read source s.place) :=
      .look rfl (.pure (h.node rfl trivial allPlaced_nil))
    refine .ite (fun _ => ?_) fun _ => .look rfl (hnode h₂)
    exact .bind (moduleName_passes.moves h₂) fun _ t₃ ⟨h₃, _⟩ => hnode h₃
  refine .ite (fun _ => ?_) fun _ => .look rfl (hnamed h)
  exact .bind (advance_moves h) fun _ t₁ ⟨h₁, _⟩ => .look rfl (hnamed h₁)

theorem exportSource_moves (hr : Readers source r) :
    Moves source (exportSource r) fun found => AllPlaced source found.2.toList := by
  intro lo floor s h
  refine .bind (takeWord_moves "from" h) fun _ t₁ ⟨h₁, _⟩ => .ite (fun _ => ?_) fun _ => .pure ⟨h₁, allPlaced_nil⟩
  refine .bind (stringLiteral_reads.moves h₁) fun _ t₂ ⟨h₂, _⟩ => ?_
  exact .bind (sourceOptions_moves hr h₂) fun options t₃ ht₃ => .pure ht₃

theorem exportNames_reads (hr : Readers source r) (h : At source lo floor s) (typeOnly : Bool) :
    Ok (exportNames r lo typeOnly) s (Read source lo) := by
  refine .bind (expectMark_ok h "\x7b") fun _ t₁ ⟨h₁, _⟩ => ?_
  refine .bind (itemsUntil_nodes "\x7d" exportedName_reads.moves h₁) fun names t₂ ⟨h₂, hnames⟩ => ?_
  refine .bind (exportSource_moves hr h₂) fun found t₃ ⟨h₃, hoptions⟩ => ?_
  refine .bind (endStatement_moves h₃) fun _ t₄ ⟨h₄, _⟩ => ?_
  exact .look rfl (.pure (h₄.node rfl trivial (allPlaced_append.2 ⟨hnames, hoptions⟩)))

theorem exportEverything_reads (hr : Readers source r) (h : At source lo floor s) :
    Ok (exportEverything r lo) s (Read source lo) := by
  refine .bind (expectMark_ok h "*") fun _ t₁ ⟨h₁, _⟩ => .bind (takeWord_moves "as" h₁) fun _ t₂ ⟨h₂, _⟩ => ?_
  extract_lets sourced
  have hsourced {t} (h : At source lo lo t) : Ok (sourced ()) t (Read source lo) := by
    refine .bind (expectWord_moves "from" h) fun _ t₃ ⟨h₃, _⟩ => ?_
    refine .bind (stringLiteral_reads.moves h₃) fun _ t₄ ⟨h₄, _⟩ => ?_
    refine .bind (sourceOptions_moves hr h₄) fun options t₅ ⟨h₅, hoptions⟩ => ?_
    refine .bind (endStatement_moves h₅) fun _ t₆ ⟨h₆, _⟩ => ?_
    exact .look rfl (.pure (h₆.node rfl trivial hoptions))
  refine .ite (fun _ => ?_) fun _ => hsourced h₂
  exact .bind (moduleName_passes.moves h₂) fun _ t₃ ⟨h₃, _⟩ => hsourced h₃

theorem exportDefault_reads (hr : Readers source r) (h : At source lo floor s) {marks : List Node}
    (hmarks : AllPlaced source marks) : Ok (exportDefault r lo marks) s (Read source lo) := by
  refine .bind (expectWord_ok h "default") fun _ t₁ ⟨h₁, _⟩ => .look rfl (.look rfl ?_)
  extract_lets expressed
  have hdeclared {inner t} (h : At source lo lo t) (hinner : inner.Placed source) :
      Ok (since lo >>= fun span => pure (.exportDefaultDeclaration span inner)) t (Read source lo) :=
    .look rfl (.pure (h.node rfl trivial hinner.one))
  have hexpressed {t} (h : At source lo lo t) : Ok (expressed ()) t (Read source lo) := by
    refine .bind (hr.assignment true false h) fun inner t₂ ⟨h₂, hinner⟩ => ?_
    refine .bind (endStatement_moves h₂) fun _ t₃ ⟨h₃, _⟩ => ?_
    exact .look rfl (.pure (h₃.node rfl trivial hinner.placed.one))
  refine .peek startsFunction_ok fun _ => .ite (fun _ => .look rfl ?_) fun _ => ?_
  · refine .bind (takeWord_moves "async" h₁.here) fun _ t₂ ⟨h₂, _⟩ => ?_
    refine .bind (functionAfterWord_reads hr h₂) fun found t₃ ⟨h₃, hinner⟩ => ?_
    exact hdeclared (h₁.passed h₃) hinner.placed
  refine .peek startsClass_ok fun _ => .ite (fun _ => .look rfl ?_) fun _ => .ite (fun _ => ?_) fun _ => hexpressed h₁
  · refine .bind (classDeclaration_reads hr h₁.here hmarks) fun inner t₂ ⟨h₂, hinner⟩ => ?_
    exact hdeclared (h₁.passed h₂) hinner.placed
  · refine .bind (declaration?_offers hr h₁) fun found t₂ h₂ => ?_
    cases found with
    | none => exact hexpressed h₂
    | some inner => exact hdeclared h₂.1 h₂.2.placed

theorem exportDeclaration_reads (hr : Readers source r) (h : At source lo floor s) {marks : List Node}
    (hmarks : AllPlaced source marks) : Ok (exportDeclaration r lo marks) s (Read source lo) := by
  refine .bind (expectWord_ok h "export") fun _ t₁ ⟨h₁, _⟩ => .look rfl (.look rfl ?_)
  have hdeclared {inner t} (h : At source lo lo t) (hinner : inner.Placed source) :
      Ok (since lo >>= fun span => pure (.exportDeclaration span inner)) t (Read source lo) :=
    .look rfl (.pure (h.node rfl trivial hinner.one))
  refine .ite (fun _ => exportDefault_reads hr h₁ hmarks) fun _ => ?_
  refine .ite (fun _ => exportNames_reads hr h₁ false) fun _ => ?_
  refine .ite (fun _ => exportEverything_reads hr h₁) fun _ => .ite (fun _ => ?_) fun _ => ?_
  · refine .bind (advance_moves h₁) fun _ t₂ ⟨h₂, _⟩ => ?_
    exact .ite (fun _ => exportEverything_reads hr h₂) fun _ => exportNames_reads hr h₂ true
  refine .bind (takeMark_moves "=" h₁) fun _ t₂ ⟨h₂, _⟩ => .ite (fun _ => ?_) fun _ => .ite (fun _ => ?_) fun _ => ?_
  · exact expressionStatement_reads hr h₂
  · refine .bind (advance_moves h₂) fun _ t₃ ⟨h₃, _⟩ => .bind (advance_moves h₃) fun _ t₄ ⟨h₄, _⟩ => ?_
    refine .bind ((identifier_reads _).moves h₄) fun _ t₅ ⟨h₅, _⟩ => ?_
    refine .bind (endStatement_moves h₅) fun _ t₆ ⟨h₆, _⟩ => ?_
    exact .look rfl (.pure (h₆.node rfl trivial allPlaced_nil))
  refine .ite (fun _ => ?_) fun _ => .peek startsClass_ok fun _ => .ite (fun _ => .look rfl ?_) fun _ => ?_
  · refine .bind (advance_moves h₂) fun _ t₃ ⟨h₃, _⟩ => .bind (takeWord_moves "type" h₃) fun _ t₄ ⟨h₄, _⟩ => ?_
    exact .bind ((identifier_reads _).moves h₄) fun _ t₅ ⟨h₅, _⟩ => importAssignment_reads hr h₅
  · refine .bind (classDeclaration_reads hr h₂.here hmarks) fun inner t₃ ⟨h₃, hinner⟩ => ?_
    exact hdeclared (h₂.passed h₃) hinner.placed
  · refine .bind (declaration?_offers hr h₂) fun found t₃ h₃ => ?_
    cases found with
    | none => exact .failHere
    | some inner => exact hdeclared h₃.1 h₃.2.placed

/-! ## Statements -/

theorem statement_reads (hr : Readers source r) (topLevel : Bool) : Reads source (statement r topLevel) := by
  refine .of_here fun s h => ?_
  refine .look rfl (.ite (fun _ => block_reads hr h) fun _ => ifMark_ok h (fun t₁ h₁ _ => ?_) ?_)
  · exact .look rfl (.pure (h₁.state.node rfl trivial allPlaced_nil))
  refine .bind (reservedStatement?_ok hr h) fun found t₁ ht₁ => ?_
  cases found with
  | some n => exact .pure ht₁
  | none =>
    obtain rfl : t₁ = s := ht₁
    refine .look rfl (.ite (fun _ => importDeclaration_reads hr h) fun _ => ?_)
    refine .ite (fun _ => exportDeclaration_reads hr h allPlaced_nil) fun _ => .ite (fun _ => ?_) fun _ => ?_
    · refine .bind (decorators_moves hr h) fun marks t₂ ⟨h₂, hmarks⟩ => .look rfl ?_
      exact .ite (fun _ => exportDeclaration_reads hr h₂ hmarks) fun _ => classDeclaration_reads hr h₂ hmarks
    refine .bind (declaration?_offers hr h) fun found t₂ h₂ => ?_
    cases found with
    | some n => exact .pure h₂
    | none =>
      have h₂ : At source t₁.place t₁.seen t₂ := h₂
      refine .ite (fun _ => ?_) fun _ => expressionStatement_reads hr h₂
      refine .bind (advance_moves h₂) fun _ t₃ ⟨h₃, _⟩ => .bind (advance_moves h₃) fun _ t₄ ⟨h₄, _⟩ => ?_
      refine .bind (hr.statement false h₄) fun body t₅ ⟨h₅, hbody⟩ => ?_
      exact .look rfl (.pure (h₅.node rfl trivial hbody.placed.one))

end TsxWorkbench.Syntax
