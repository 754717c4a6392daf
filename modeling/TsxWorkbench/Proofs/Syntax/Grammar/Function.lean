/-
Functions, object literals and classes: what each of their readers reads is in place.
-/
import TsxWorkbench.Proofs.Syntax.Grammar.Type
import TsxWorkbench.Syntax.Grammar.Function

namespace TsxWorkbench.Syntax

open Text Node

variable {source : List Char} {r : Goal → Parse Node} {lo floor : Nat} {s : Reading}

/-! ## Functions -/

theorem functionFrom_reads (hr : Readers source r) (h : At source lo floor s) :
    Ok (functionFrom r lo) s (Read source lo) := by
  refine .bind (typeParameters_moves hr h) fun types t₁ ⟨h₁, htypes⟩ => ?_
  refine .bind (expectMark_ok h₁ "(") fun _ t₂ ⟨h₂, _⟩ => ?_
  refine .bind (parameters_moves hr h₂) fun params t₃ ⟨h₃, hparams⟩ => ?_
  refine .bind (resultAnnotation?_moves hr h₃) fun result t₄ ⟨h₄, hresult⟩ => ?_
  refine .look rfl (.ite (fun _ => ?_) fun _ => ?_)
  · refine .bind (hr.block h₄) fun body t₅ ⟨h₅, hbody⟩ => ?_
    exact .look rfl (.pure (h₅.node rfl trivial (by simp [hparams, htypes, hresult, hbody.placed])))
  · refine .bind (endStatement_moves h₄) fun _ t₅ ⟨h₅, _⟩ => ?_
    exact .look rfl (.pure (h₅.node rfl trivial (by simp [hparams, htypes, hresult])))

theorem functionAfterWord_reads (hr : Readers source r) (h : At source lo floor s) :
    Ok (functionAfterWord r lo) s fun found t => Read source lo found.2 t := by
  refine .bind (expectWord_ok h "function") fun _ t₁ ⟨h₁, _⟩ => ?_
  refine .bind (takeMark_moves "*" h₁) fun _ t₂ ⟨h₂, _⟩ => .look rfl ?_
  refine .bind (given_moves _ (identifier_reads _).moves h₂) fun name t₃ ⟨h₃, _⟩ => ?_
  exact .bind (functionFrom_reads hr h₃) fun _ _ ht => .pure ht

/-! ## Object literals -/

theorem methodMark?_moves : Moves source methodMark? fun _ => True := by
  refine .of_here fun s h => ?_
  have hpassed {t} (ht : Took source s.place s t) : At source s.place s.seen t := h.onward ht.state
  refine ifMark_ok h (fun t₁ h₁ _ => .pure ⟨hpassed h₁, trivial⟩) ?_
  refine .look rfl (.ite (fun _ => .look rfl (.ite (fun _ => ?_) fun _ => .pure ⟨h, trivial⟩)) fun _ =>
    .pure ⟨h, trivial⟩)
  exact .bind (advance_ok h) fun _ t₁ h₁ => .pure ⟨hpassed h₁, trivial⟩

theorem objectEntry_reads (hr : Readers source r) : Reads source (objectEntry r) := by
  refine .of_here fun s h => ?_
  refine .look rfl (ifMark_ok h (fun t₁ h₁ _ => ?_) ?_)
  · refine .bind (hr.assignment true false h₁.state) fun inner t₂ ⟨h₂, hinner⟩ => ?_
    exact .look rfl (.pure (h₂.node rfl trivial hinner.placed.one))
  refine .bind (takeModifier_moves _ h) fun _ t₁ ⟨h₁, _⟩ => .ite (fun _ => ?_) fun _ => ?_
  · refine .bind (propertyKey_reads hr h₁) fun key t₂ ⟨h₂, hkey⟩ => .look rfl ?_
    refine .bind (functionFrom_reads hr h₂.here) fun method t₃ ⟨h₃, hmethod⟩ => ?_
    exact .look rfl (.pure ((h₂.passed h₃).node rfl trivial (by simp [hkey.placed, hmethod.placed])))
  refine .bind (many_any methodMark?_moves h₁) fun _ t₂ ⟨h₂, _⟩ => .look rfl ?_
  refine .bind (propertyKey_reads hr h₂.here) fun key t₃ ⟨h₃, hkey⟩ => ?_
  dsimp only
  refine .look rfl (.ite (fun _ => .look rfl ?_) fun _ => ?_)
  · refine .bind (functionFrom_reads hr h₃.here) fun method t₄ ⟨h₄, hmethod⟩ => ?_
    exact .look rfl (.pure (((h₂.passed h₃).passed h₄).node rfl trivial (by simp [hkey.placed, hmethod.placed])))
  -- an entry that is no method starts at its key
  suffices hkeyed : Ok _ t₃ (Read source t₂.place) from hkeyed.mono fun _ _ => .lower h₂
  refine ifMark_ok h₃ (fun t₄ h₄ _ => ?_) ?_
  · refine .bind (hr.assignment true false h₄.state) fun value t₅ ⟨h₅, hvalue⟩ => ?_
    exact .look rfl (.pure (h₅.node rfl hvalue.span (by simp [hkey.placed, hvalue.placed])))
  split
  · exact .look rfl .failHere
  · refine ifMark_ok h₃ (fun t₄ h₄ _ => ?_) (.look rfl (.pure (h₃.node rfl trivial allPlaced_nil)))
    refine .bind (hr.assignment true false h₄.state) fun initial t₅ ⟨h₅, hinitial⟩ => ?_
    exact .look rfl (.pure (h₅.node rfl trivial hinitial.placed.one))

theorem objectLiteral_reads (hr : Readers source r) : Reads source (objectLiteral r) := by
  refine .of_here fun s h => ?_
  refine .look rfl (.bind (expectMark_ok h "\x7b") fun _ t₁ ⟨h₁, _⟩ => ?_)
  refine .bind (itemsUntil_series "\x7d" (objectEntry_reads hr) h₁) fun entries t₂ ⟨h₂, hentries, hseries⟩ => ?_
  have hread : At source s.place s.place t₂ := h₂.lower (Nat.le_refl _) h₁.boundary h₁.floor_le
  exact .look rfl (.pure (hread.node rfl (hseries.lower h₁.floor_le) hentries))

/-! ## Classes -/

theorem memberModifier?_moves : Moves source memberModifier? fun _ => True := by
  refine .of_here fun s h => ?_
  have hpassed {t} (ht : Took source s.place s t) : At source s.place s.seen t := h.onward ht.state
  refine ifMark_ok h (fun t₁ h₁ _ => .pure ⟨hpassed h₁, trivial⟩) (.look rfl ?_)
  split
  · refine .look rfl (.ite (fun _ => ?_) fun _ => .pure ⟨h, trivial⟩)
    exact .bind (advance_ok h) fun _ t₁ h₁ => .pure ⟨hpassed h₁, trivial⟩
  · exact .pure ⟨h, trivial⟩

theorem classMember_reads (hr : Readers source r) : Reads source (classMember r) := by
  refine .of_here fun s h => ?_
  refine .look rfl (ifMark_ok h (fun t₁ h₁ _ => .look rfl (.pure (h₁.state.node rfl trivial allPlaced_nil))) ?_)
  refine .bind (decorators_moves hr h) fun marks t₁ ⟨h₁, hmarks⟩ => ?_
  refine .look rfl (.look rfl (.ite (fun _ => ?_) fun _ => ?_))
  · refine .bind (advance_ok h₁) fun _ t₂ h₂ => ?_
    refine .bind (hr.block h₂.state) fun body t₃ ⟨h₃, hbody⟩ => ?_
    exact .look rfl (.pure (h₃.node rfl trivial hbody.placed.one))
  refine .bind (many_any memberModifier?_moves h₁) fun _ t₂ ⟨h₂, _⟩ => .look rfl ?_
  extract_lets keyed
  have hkeyed : Ok (keyed ()) t₂ (Read source s.place) := by
    refine .bind (propertyKey_reads hr h₂) fun key t₃ ⟨h₃, hkey⟩ => ?_
    extract_lets typed
    have htyped {t} (h : At source s.place s.place t) : Ok (typed ()) t (Read source s.place) := by
      refine .look rfl (.ite (fun _ => .look rfl ?_) fun _ => ?_)
      · refine .bind (functionFrom_reads hr h.here) fun method t₄ ⟨h₄, hmethod⟩ => ?_
        exact .look rfl (.pure ((h.passed h₄).node rfl trivial
          (by simp [hkey.placed, hmethod.placed, hmarks])))
      · refine .bind (typeAnnotation?_moves hr h) fun type t₄ ⟨h₄, htype⟩ => ?_
        refine .bind (afterMark_nodes "=" (hr.assignment true false).moves h₄) fun value t₅ ⟨h₅, hvalue⟩ => ?_
        refine .bind (endStatement_moves h₅) fun _ t₆ ⟨h₆, _⟩ => ?_
        exact .look rfl (.pure (h₆.node rfl trivial (by simp [hkey.placed, hvalue, htype, hmarks])))
    refine ifMark_ok h₃ (fun t₄ h₄ _ => htyped h₄.state) ?_
    exact .bind (takeMark_moves "!" h₃) fun _ t₄ ⟨h₄, _⟩ => htyped h₄
  refine .ite (fun _ => ?_) fun _ => hkeyed
  have hsignature : Ok _ t₂ (Read source s.place) := .bind (indexSignature_reads hr h₂) fun signature t₃ ⟨h₃, hn⟩ =>
    .bind (endStatement_moves.keep h₃ hn) fun _ t₄ ⟨h₄, _, hn⟩ => .pure (b := signature) ⟨h₄, hn⟩
  refine .bind (attempt_ok hsignature) fun found t₃ h₃ => ?_
  cases found with
  | none => exact (show t₃ = t₂ from h₃) ▸ hkeyed
  | some signature => exact .pure h₃

/-- a name with the names after its dots and its type arguments -/
theorem heritage_reads (hr : Readers source r) : Reads source (heritage r) := by
  refine .of_here fun s h => ?_
  refine .look rfl (.bind (anyWord_reads h) fun found t₁ ⟨h₁, hspan⟩ => ?_)
  refine .bind (dottedFrom_reads h₁ (.of_span rfl hspan trivial allPlaced_nil)) fun base t₂ ⟨h₂, hbase⟩ => .look rfl ?_
  refine .bind ((typeArgumentsIf_moves hr _).keep h₂ hbase) fun args t₃ ⟨h₃, hargs, hbase⟩ => ?_
  refine .ite (fun _ => .pure ⟨h₃, hbase⟩) fun _ => ?_
  exact .look rfl (.pure (h₃.node rfl trivial (by simp [hbase.placed, hargs])))

theorem commaSeparated_passes {α : Type} {item : Parse α} {V : α → Prop} (hitem : Passes source item V) :
    Passes source (commaSeparated item) fun items => ∀ a ∈ items, V a := by
  intro lo floor s h
  refine .bind (hitem h) fun first t₁ ⟨h₁, hfirst⟩ => ?_
  refine .bind (many_moves (afterMark_moves "," hitem.moves) h₁) fun others t₂ ⟨h₂, hothers⟩ => ?_
  exact .pure ⟨h₂, List.forall_mem_cons.2 ⟨hfirst, hothers⟩⟩

theorem classFrom_reads (hr : Readers source r) (h : At source lo floor s) {marks : List Node}
    (hmarks : AllPlaced source marks) : Ok (classFrom r lo marks) s (Read source lo) := by
  refine .bind (expectWord_ok h "class") fun _ t₁ ⟨h₁, _⟩ => .look rfl (.look rfl (.look rfl (.look rfl ?_)))
  extract_lets named
  have hnamed {t} (h : At source lo lo t) : Ok (named ()) t (Read source lo) := by
    refine .bind (typeParameters_moves hr h) fun types t₂ ⟨h₂, htypes⟩ => ?_
    refine .bind (afterWord_nodes "extends" hr.unary.moves h₂) fun base t₃ ⟨h₃, hbase⟩ => .look rfl ?_
    refine .bind (typeArgumentsIf_moves hr _ h₃) fun baseTypes t₄ ⟨h₄, hbaseTypes⟩ => ?_
    refine .bind (afterWord_moves "implements" (commaSeparated_passes (heritage_reads hr).passes).moves h₄)
      fun promised t₅ ⟨h₅, hpromised⟩ => ?_
    refine .bind (expectMark_ok h₅ "\x7b") fun _ t₆ ⟨h₆, _⟩ => ?_
    refine .bind (bodyUntilBrace_nodes (classMember_reads hr).moves h₆) fun members t₇ ⟨h₇, hmembers⟩ => ?_
    exact .look rfl (.pure (h₇.node rfl trivial
      (by simp [hmarks, hmembers, hbase, htypes, hbaseTypes, allPlaced_getD hpromised])))
  refine .ite (fun _ => hnamed h₁) fun _ => ?_
  exact .bind (identifier_reads _ h₁) fun _ t₂ ⟨h₂, _⟩ => hnamed h₂

end TsxWorkbench.Syntax
