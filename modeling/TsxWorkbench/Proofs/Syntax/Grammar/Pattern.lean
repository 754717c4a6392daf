/-
Keys, patterns, decorators and parameters: what each of their readers reads is in place.
-/
import TsxWorkbench.Proofs.Syntax.Reading

namespace TsxWorkbench.Syntax

open Text Node

variable {source : List Char} {r : Goal → Parse Node} {lo floor : Nat} {s : Reading} {n : Node}

/-! ## Keys -/

theorem propertyKey_reads (hr : Readers source r) : Reads source (propertyKey r) := by
  refine .of_here fun s h => ?_
  refine .look rfl ?_
  split
  · exact token_reads h rfl trivial allPlaced_nil
  · exact token_reads h rfl trivial allPlaced_nil
  · exact token_reads h rfl trivial allPlaced_nil
  · exact token_reads h rfl trivial allPlaced_nil
  · exact token_reads h rfl trivial allPlaced_nil
  · refine .ite (fun _ => ?_) fun _ => .failHere
    refine .bind (advance_ok h) fun _ t₁ h₁ => ?_
    refine .bind (hr.expression true h₁.state) fun inner t₂ ⟨h₂, hinner⟩ => ?_
    refine .bind (expectMark_ok h₂ "]") fun _ t₃ ⟨h₃, _⟩ => ?_
    exact .look rfl (.pure (h₃.node rfl trivial (by simp [hinner.placed])))

/-! ## Types of bindings -/

theorem typeAnnotation?_moves (hr : Readers source r) :
    Moves source (typeAnnotation? r) fun type => AllPlaced source type.toList := afterMark_nodes ":" hr.type.moves

/-- a pattern in place stays so when a type is written after it -/
theorem fits_withType {type : Option Node} {hi hi' : Nat} (hn : n.Fits source lo hi) (hle : hi ≤ hi')
    (hb : Boundary source hi') (htype : AllPlaced source type.toList) : (withType type hi' n).Fits source lo hi' := by
  have hspan : SpanFits source lo hi' ⟨n.span.lo, hi'⟩ :=
    ⟨hn.span.lo_le, hn.span.le.trans (hn.span.hi_le.trans hle), Nat.le_refl _, hn.span.boundary_lo, hb⟩
  have hchildren := hn.placed.children
  unfold withType
  split
  · exact .of_span rfl hspan trivial htype
  · exact .of_span rfl hspan trivial (by simp_all)
  · exact .of_span rfl hspan trivial (by simp_all)
  · exact hn.mono (Nat.le_refl _) hle

/-- a pattern, before and after a type is written after it -/
theorem typeAnnotation?_ok (hr : Readers source r) (h : At source lo lo s) (hn : n.Fits source lo s.seen) :
    Ok (typeAnnotation? r) s fun type t => At source lo lo t ∧ AllPlaced source type.toList ∧ n.Fits source lo t.seen ∧
      (withType type t.seen n).Fits source lo t.seen := by
  refine (typeAnnotation?_moves hr h.here).mono fun type t ⟨ht, htype⟩ => ?_
  exact ⟨h.after ht (Nat.le_refl _), htype, hn.mono (Nat.le_refl _) ht.floor_le,
    fits_withType hn ht.floor_le ht.sound.seen htype⟩

theorem typedTarget_reads (hr : Readers source r) : Reads source (typedTarget r) := by
  intro lo floor s h
  refine .bind (hr.target h) fun target t₁ ⟨h₁, htarget⟩ => ?_
  refine .bind (typeAnnotation?_ok hr h₁ htarget) fun type t₂ ⟨h₂, _, hplain, htyped⟩ => ?_
  split
  · exact .look rfl (.pure ⟨h₂, htyped⟩)
  · exact .pure ⟨h₂, hplain⟩

theorem withInitial_reads (hr : Readers source r) (h : At source lo lo s) (hn : n.Fits source lo s.seen) :
    Ok (withInitial r lo n) s (Read source lo) := by
  refine ifMark_ok h (fun t₁ h₁ _ => ?_) (.pure ⟨h, hn⟩)
  refine .bind (hr.assignment true false h₁.state) fun initial t₂ ⟨h₂, hinitial⟩ => ?_
  exact .look rfl (.pure (h₂.node rfl trivial (by simp [hn.placed, hinitial.placed])))

/-! ## Patterns -/

theorem arrayPatternItem_moves (hr : Readers source r) : Moves source (arrayPatternItem r) (Placed source) := by
  refine .of_here fun s h => ?_
  refine .look rfl (.look rfl (.ite (fun _ => .pure ⟨h, h.hole⟩) fun _ => ?_))
  refine ifMark_ok h (fun t₁ h₁ _ => ?_) ?_
  · refine .bind (hr.target h₁.state) fun rest t₂ ⟨h₂, hrest⟩ => ?_
    exact .look rfl (.pure (Read.moved h (h₂.node rfl trivial (by simp [hrest.placed]))))
  · refine .bind (hr.target h) fun target t₁ ⟨h₁, htarget⟩ => ?_
    exact (withInitial_reads hr h₁ htarget).mono fun _ _ => Read.moved h

theorem objectPatternEntry_reads (hr : Readers source r) : Reads source (objectPatternEntry r) := by
  refine .of_here fun s h => ?_
  refine .look rfl ?_
  refine ifMark_ok h (fun t₁ h₁ _ => ?_) ?_
  · refine .bind (hr.target h₁.state) fun rest t₂ ⟨h₂, hrest⟩ => ?_
    exact .look rfl (.pure (h₂.node rfl trivial (by simp [hrest.placed])))
  refine .look rfl ?_
  refine .bind (propertyKey_reads hr h) fun key t₁ ⟨h₁, hkey⟩ => ?_
  refine ifMark_ok h₁ (fun t₂ h₂ _ => ?_) ?_
  · refine .look rfl ?_
    refine .bind (hr.target h₂.state.here) fun value t₃ ⟨h₃, hvalue⟩ => ?_
    refine .bind (withInitial_reads hr h₃ hvalue) fun value t₄ ⟨h₄, hvalue⟩ => ?_
    have hspan := hvalue.span.mono h₂.state.lo_le (Nat.le_refl _)
    exact .look rfl (.pure ((h₂.state.passed h₄).node rfl hspan (by simp [hkey.placed, hvalue.placed])))
  split
  · exact .look rfl .failHere
  · refine ifMark_ok h₁ (fun t₂ h₂ _ => ?_) (.look rfl (.pure (h₁.node rfl trivial allPlaced_nil)))
    refine .bind (hr.assignment true false h₂.state) fun initial t₃ ⟨h₃, hinitial⟩ => ?_
    exact .look rfl (.pure (h₃.node rfl trivial (by simp [hinitial.placed])))

theorem target_reads (hr : Readers source r) : Reads source (target r) := by
  refine .of_here fun s h => ?_
  refine .look rfl ?_
  refine ifMark_ok h (fun t₁ h₁ _ => ?_) ?_
  · refine .bind (itemsUntil_nodes "]" (arrayPatternItem_moves hr) h₁.state) fun items t₂ ⟨h₂, hitems⟩ => ?_
    exact .look rfl (.pure (h₂.node rfl trivial hitems))
  refine ifMark_ok h (fun t₁ h₁ _ => ?_) ?_
  · refine .bind (itemsUntil_nodes "\x7d" (objectPatternEntry_reads hr).moves h₁.state)
      fun entries t₂ ⟨h₂, hentries⟩ => ?_
    exact .look rfl (.pure (h₂.node rfl trivial (by simp [hentries])))
  refine .look rfl (.bind (identifier_reads _ h) fun found t₁ ⟨h₁, hspan⟩ => ?_)
  exact .pure ⟨h₁, .of_span rfl hspan trivial allPlaced_nil⟩

/-! ## Decorators -/

theorem dottedFrom_reads (h : At source lo lo s) (hn : n.Fits source lo s.seen) :
    Ok (dottedFrom lo n) s (Read source lo) := by
  refine extend_ok (I := Read source lo) (fun base s ⟨h, hbase⟩ => ?_) ⟨h, hn⟩
  refine ifMark_ok h (fun t₁ h₁ _ => ?_) (.pure ⟨h, hbase⟩)
  refine .bind (anyWord_reads h₁.state) fun found t₂ ⟨h₂, hspan⟩ => ?_
  have hname := (Fits.of_span (n := .ident found.2 found.1) rfl hspan trivial allPlaced_nil).placed
  exact .look rfl (.pure (h₂.node rfl trivial (by simp [hbase.placed, hname])))

theorem callArguments_moves (hr : Readers source r) : Moves source (callArguments r) (AllPlaced source) := by
  refine itemsUntil_nodes ")" (Reads.moves ?_)
  refine .of_here fun s h => ?_
  refine .look rfl ?_
  refine ifMark_ok h (fun t₁ h₁ _ => ?_) (hr.assignment true false h)
  refine .bind (hr.assignment true false h₁.state) fun inner t₂ ⟨h₂, hinner⟩ => ?_
  exact .look rfl (.pure (h₂.node rfl trivial (by simp [hinner.placed])))

theorem decorator?_offers (hr : Readers source r) : Offers source (decorator? r) := by
  intro lo floor s h
  refine ifMark_ok h (fun t₁ h₁ _ => ?_) (.pure h)
  refine .look rfl ?_
  refine ifMark_ok h₁.state.here (fun t₂ h₂ _ => ?_) ?_
  · refine .bind (hr.expression true h₂.state) fun inner t₃ ⟨h₃, hinner⟩ => ?_
    refine .bind ((expectMark_moves ")").keep h₃ hinner) fun _ t₄ ⟨h₄, _, hinner⟩ => ?_
    exact .look rfl (.pure (Read.lower h₁.state (h₄.node rfl hinner.span (by simp [hinner.placed]))))
  refine .bind (identifier_reads _ h₁.state.here) fun found t₂ ⟨h₂, hspan⟩ => ?_
  refine .bind (dottedFrom_reads h₂ (.of_span rfl hspan trivial allPlaced_nil)) fun callee t₃ ⟨h₃, hcallee⟩ => ?_
  refine ifMark_ok h₃ (fun t₄ h₄ _ => ?_) (.pure (Read.lower h₁.state ⟨h₃, hcallee⟩))
  refine .bind (callArguments_moves hr h₄.state) fun args t₅ ⟨h₅, hargs⟩ => ?_
  exact .look rfl (.pure (Read.lower h₁.state (h₅.node rfl trivial (by simp [hcallee.placed, hargs]))))

theorem decorators_moves (hr : Readers source r) : Moves source (decorators r) (AllPlaced source) :=
  many_nodes (decorator?_offers hr).moves

/-! ## Parameters -/

theorem parameterModifier?_moves : Moves source parameterModifier? fun _ => True := by
  intro lo floor s h
  refine .look rfl ?_
  split
  · refine .look rfl (.ite (fun _ => ?_) fun _ => .pure ⟨h, trivial⟩)
    exact .bind (advance_ok h.here) fun _ t₁ h₁ => .pure ⟨h.onward h₁.state, trivial⟩
  · exact .pure ⟨h, trivial⟩

theorem parameterTarget_reads (hr : Readers source r) : Reads source (parameterTarget r) := by
  intro lo floor s h
  refine .look rfl (.ite (fun _ => ?_) fun _ => hr.target h)
  exact token_reads h rfl trivial allPlaced_nil

theorem parameter_reads (hr : Readers source r) : Reads source (parameter r) := by
  refine .of_here fun s h => ?_
  refine .look rfl ?_
  refine .bind (decorators_moves hr h) fun marks t₁ ⟨h₁, hmarks⟩ => ?_
  refine .bind (many_any parameterModifier?_moves h₁) fun _ t₂ ⟨h₂, _⟩ => ?_
  refine .look rfl ?_
  extract_lets finish
  -- what is left to do once the pattern is read
  have hfinish {pattern t} (hp : Read source t₂.place pattern t) : Ok (finish pattern) t (Read source s.place) := by
    refine .ite (fun _ => .pure (Read.lower h₂ hp)) fun _ => ?_
    exact .look rfl (.pure ((h₂.passed hp.1).node rfl trivial (by simp [hmarks, hp.2.placed])))
  refine ifMark_ok h₂.here (fun t₃ h₃ _ => ?_) ?_
  · refine .bind (hr.target h₃.state) fun rest t₄ ⟨h₄, hrest⟩ => ?_
    refine .bind (typeAnnotation?_moves hr h₄) fun type t₅ ⟨h₅, htype⟩ => ?_
    exact .look rfl (.look rfl (hfinish (h₅.node rfl trivial (by simp [hrest.placed, htype]))))
  · refine .bind (parameterTarget_reads hr h₂.here) fun inner t₃ ⟨h₃, hinner⟩ => ?_
    refine .bind ((takeMark_moves "?").keep h₃ hinner) fun _ t₄ ⟨h₄, _, hinner⟩ => ?_
    refine .bind (typeAnnotation?_ok hr h₄ hinner) fun type t₅ ⟨h₅, _, hplain, htyped⟩ => ?_
    refine .look rfl ?_
    refine .bind (withInitial_reads hr h₅ ?_) fun pattern t₆ hpattern => hfinish hpattern
    split
    · exact htyped
    · exact hplain

theorem parameters_moves (hr : Readers source r) : Moves source (parameters r) (AllPlaced source) := by
  refine itemsUntil_nodes ")" fun lo floor s h => ?_
  refine .look rfl (.ite (fun _ => .look rfl .throw) fun _ => ?_)
  exact (parameter_reads hr).moves h

end TsxWorkbench.Syntax
