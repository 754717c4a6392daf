/-
Types: what each reader of types reads is in place, and a list of type arguments ends in its bracket.
-/
import TsxWorkbench.Proofs.Syntax.Grammar.Pattern
import TsxWorkbench.Proofs.Syntax.Grammar.Template
import TsxWorkbench.Syntax.Grammar.Type

namespace TsxWorkbench.Syntax

open Text Node

variable {source : List Char} {r : Goal → Parse Node} {lo floor : Nat} {s : Reading}

/-! ## Arguments and parameters -/

theorem typeArguments_ok (hr : Readers source r) (h : At source lo floor s) : Ok (typeArguments r) s fun args t =>
    At source lo lo t ∧ AllPlaced source args ∧ Solid source t.seen := by
  refine .bind (splitMark_moves '<' h) fun _ t₁ ⟨h₁, _⟩ => ?_
  refine .bind (expectMark_ok h₁ "<") fun _ t₂ ⟨h₂, _⟩ => ?_
  refine .bind (many_nodes (fun lo floor s h => ?_) h₂) fun args t₃ ⟨h₃, hargs⟩ => ?_
  · refine .bind (splitMark_moves '>' h) fun _ t₁ ⟨h₁, _⟩ => ?_
    refine .look rfl (.ite (fun _ => .pure ⟨h₁, allPlaced_nil⟩) fun _ => ?_)
    refine .bind (hr.type.moves h₁) fun type t₂ ⟨h₂, htype⟩ => ?_
    refine .bind (splitMark_moves '>' h₂) fun _ t₃ ⟨h₃, _⟩ => ?_
    exact .bind (separator_moves ">" h₃) fun _ t₄ ⟨h₄, _⟩ => .pure ⟨h₄, by simpa using htype⟩
  · exact .bind (expectMark_ok h₃ ">") fun _ t₄ ⟨h₄, hsolid⟩ => .pure ⟨h₄, hargs, hsolid⟩

theorem typeArguments_passes (hr : Readers source r) : Passes source (typeArguments r) (AllPlaced source) :=
  fun _ _ _ h => (typeArguments_ok hr h).mono fun _ _ ht => ⟨ht.1, ht.2.1⟩

theorem allPlaced_getD {found : Option (List Node)} (h : ∀ ns ∈ found, AllPlaced source ns) :
    AllPlaced source (found.getD []) := by
  cases found with
  | none => exact allPlaced_nil
  | some ns => exact h ns rfl

theorem typeArgumentsIf_moves (hr : Readers source r) (condition : Bool) :
    Moves source (typeArgumentsIf r condition) (AllPlaced source) := fun _ _ _ h =>
  .bind (given_moves condition (typeArguments_passes hr).moves h) fun _ _ ⟨ht, hargs⟩ =>
    .pure ⟨ht, allPlaced_getD hargs⟩

/-- type arguments that were read end in a bracket -/
theorem typeArgumentsIf_solid (hr : Readers source r) (condition : Bool) (h : At source lo floor s) :
    Ok (typeArgumentsIf r condition) s fun args t =>
      At source lo s.seen t ∧ AllPlaced source args ∧ (args.isEmpty = false → Solid source t.seen) := by
  refine .bind (P := fun found t => At source lo s.seen t ∧ AllPlaced source (found.getD []) ∧
    ((found.getD []).isEmpty = false → Solid source t.seen)) (.ite (fun _ => ?_) fun _ => ?_) fun _ _ ht => .pure ht
  · exact .bind (typeArguments_ok hr h.here) fun args t ⟨ht, hargs, hsolid⟩ =>
      .pure ⟨h.now.onward ht, hargs, fun _ => hsolid⟩
  · exact .pure ⟨h.now, allPlaced_nil, by simp⟩

theorem typeParameter_reads (hr : Readers source r) : Reads source (typeParameter r) := by
  refine .of_here fun s h => ?_
  refine .look rfl ?_
  refine .bind (many_any (fun lo floor s h => ?_) h) fun _ t₁ ⟨h₁, _⟩ => ?_
  · refine .look rfl (.look rfl (.ite (fun _ => ?_) fun _ => .pure ⟨h, trivial⟩))
    exact .bind (advance_ok h.here) fun _ t ht => .pure ⟨h.onward ht.state, trivial⟩
  refine .bind (identifier_reads _ h₁) fun _ t₂ ⟨h₂, _⟩ => ?_
  refine .bind (afterWord_nodes "extends" hr.type.moves h₂) fun bound t₃ ⟨h₃, hbound⟩ => ?_
  refine .bind (afterMark_nodes "=" hr.type.moves h₃) fun initial t₄ ⟨h₄, hinitial⟩ => ?_
  exact .look rfl (.pure (h₄.node rfl trivial (by simp [hbound, hinitial])))

theorem typeParameters_moves (hr : Readers source r) : Moves source (typeParameters r) (AllPlaced source) := by
  intro lo floor s h
  refine ifMark_ok h.here (fun t₁ h₁ _ => ?_) (.pure ⟨h, allPlaced_nil⟩)
  refine many_nodes (fun lo floor s h => ?_) (h.onward h₁.state)
  refine .bind (splitMark_moves '>' h) fun _ t₁ ⟨h₁, _⟩ => ?_
  refine ifMark_ok h₁.here (fun t₂ h₂ _ => .pure ⟨h₁.onward h₂.state, allPlaced_nil⟩) ?_
  refine .bind ((typeParameter_reads hr).moves h₁) fun parameter t₂ ⟨h₂, hparameter⟩ => ?_
  refine .bind (splitMark_moves '>' h₂) fun _ t₃ ⟨h₃, _⟩ => ?_
  exact .bind (separator_moves ">" h₃) fun _ t₄ ⟨h₄, _⟩ => .pure ⟨h₄, by simpa using hparameter⟩

/-! ## References -/

theorem entityName_passes : Passes source entityName fun _ => True := by
  intro lo floor s h
  refine .bind (anyWord_reads h) fun first t₁ ⟨h₁, _⟩ => ?_
  refine extend_ok (I := fun _ t => At source lo lo t) (fun path s h => ?_) h₁
  refine ifMark_ok h (fun t₂ h₂ _ => ?_) (.pure ⟨h, trivial⟩)
  exact .bind (anyWord_reads h₂.state) fun name t₃ ⟨h₃, _⟩ => .pure h₃

theorem argumentsOfReference_moves (hr : Readers source r) :
    Moves source (argumentsOfReference r) (AllPlaced source) := fun _ _ _ h => .look rfl (typeArgumentsIf_moves hr _ h)

theorem typeReference_reads (hr : Readers source r) : Reads source (typeReference r) := by
  refine .of_here fun s h => ?_
  refine .look rfl (.bind (entityName_passes h) fun name t₁ ⟨h₁, _⟩ => ?_)
  refine .bind (argumentsOfReference_moves hr h₁) fun args t₂ ⟨h₂, hargs⟩ => ?_
  exact .look rfl (.pure (h₂.node rfl trivial hargs))

/-! ## Results of functions -/

theorem resultType_reads (hr : Readers source r) : Reads source (resultType r) := by
  refine .of_here fun s h => ?_
  refine .look rfl (.look rfl ?_)
  extract_lets _ plain
  have hplain : Ok (plain ()) s (Read source s.place) := by
    refine .look rfl ?_
    refine .ite (fun _ => .look rfl (.ite (fun _ => ?_) fun _ => hr.type h)) fun _ => hr.type h
    refine .bind (advance_ok h) fun _ t₁ h₁ => ?_
    refine .bind (advance_ok h₁.state) fun _ t₂ h₂ => ?_
    refine .bind (hr.type h₂.state) fun type t₃ ⟨h₃, htype⟩ => ?_
    exact .look rfl (.pure (h₃.node rfl trivial (by simp [htype.placed])))
  refine .ite (fun _ => .look rfl (.ite (fun _ => ?_) fun _ => hplain)) fun _ => hplain
  refine .bind (advance_ok h) fun _ t₁ h₁ => ?_
  refine .bind (anyWord_reads h₁.state) fun _ t₂ ⟨h₂, _⟩ => ?_
  refine .bind (afterWord_nodes "is" hr.type.moves h₂) fun type t₃ ⟨h₃, htype⟩ => ?_
  exact .look rfl (.pure (h₃.node rfl trivial htype))

theorem resultAnnotation?_moves (hr : Readers source r) :
    Moves source (resultAnnotation? r) fun type => AllPlaced source type.toList :=
  afterMark_nodes ":" (resultType_reads hr).moves

theorem functionTypeFrom_reads (hr : Readers source r) (h : At source lo floor s) :
    Ok (functionTypeFrom r lo) s (Read source lo) := by
  refine .bind (typeParameters_moves hr h) fun types t₁ ⟨h₁, htypes⟩ => ?_
  refine .bind (expectMark_ok h₁ "(") fun _ t₂ ⟨h₂, _⟩ => ?_
  refine .bind (parameters_moves hr h₂) fun params t₃ ⟨h₃, hparams⟩ => ?_
  refine .bind (expectMark_ok h₃ "=>") fun _ t₄ ⟨h₄, _⟩ => ?_
  refine .bind (resultType_reads hr h₄) fun result t₅ ⟨h₅, hresult⟩ => ?_
  exact .look rfl (.pure (h₅.node rfl trivial (by simp [hparams, htypes, hresult.placed])))

theorem signatureFrom_reads (hr : Readers source r) (h : At source lo floor s) {parts : List Node}
    (hparts : AllPlaced source parts) : Ok (signatureFrom r lo parts) s (Read source lo) := by
  refine .bind (typeParameters_moves hr h) fun types t₁ ⟨h₁, htypes⟩ => ?_
  refine .bind (expectMark_ok h₁ "(") fun _ t₂ ⟨h₂, _⟩ => ?_
  refine .bind (parameters_moves hr h₂) fun params t₃ ⟨h₃, hparams⟩ => ?_
  refine .bind (resultAnnotation?_moves hr h₃) fun result t₄ ⟨h₄, hresult⟩ => ?_
  exact .look rfl (.pure (h₄.node rfl trivial (by simp [hparts, hparams, htypes, hresult])))

/-! ## Members of object types -/

theorem takeModifier_moves (words : List String) : Moves source (takeModifier words) fun _ => True := by
  intro lo floor s h
  refine .look rfl ?_
  split
  · refine .look rfl (.ite (fun _ => ?_) fun _ => .pure ⟨h, trivial⟩)
    exact .bind (advance_ok h.here) fun _ t ht => .pure ⟨h.onward ht.state, trivial⟩
  · exact .pure ⟨h, trivial⟩

theorem indexSignature_reads (hr : Readers source r) (h : At source lo floor s) :
    Ok (indexSignature r lo) s (Read source lo) := by
  refine .bind (expectMark_ok h "[") fun _ t₁ ⟨h₁, _⟩ => ?_
  refine .bind (anyWord_reads h₁) fun _ t₂ ⟨h₂, _⟩ => ?_
  refine .bind (expectMark_ok h₂ ":") fun _ t₃ ⟨h₃, _⟩ => ?_
  refine .bind (hr.type h₃) fun key t₄ ⟨h₄, hkey⟩ => ?_
  refine .bind (expectMark_ok h₄ "]") fun _ t₅ ⟨h₅, _⟩ => ?_
  refine .bind (typeAnnotation?_moves hr h₅) fun type t₆ ⟨h₆, htype⟩ => ?_
  exact .look rfl (.pure (h₆.node rfl trivial (by simp [hkey.placed, htype])))

theorem memberKey_passes (hr : Readers source r) : Passes source (memberKey r) fun found => found.1.Placed source := by
  intro lo floor s h
  refine .bind (propertyKey_reads hr h) fun key t₁ ⟨h₁, hkey⟩ => ?_
  split
  · exact .pure ⟨h₁, hkey.placed.children _ (by simp)⟩
  · exact .pure ⟨h₁, hkey.placed⟩

theorem typeMember_reads (hr : Readers source r) : Reads source (typeMember r) := by
  refine .of_here fun s h => ?_
  refine .look rfl (.look rfl (.ite (fun _ => signatureFrom_reads hr h allPlaced_nil) fun _ => ?_))
  refine .look rfl (.look rfl (.ite (fun _ => ?_) fun _ => ?_))
  · exact .bind (advance_ok h) fun _ t₁ h₁ => signatureFrom_reads hr h₁.state allPlaced_nil
  refine .bind (takeModifier_moves _ h) fun _ t₁ ⟨h₁, _⟩ => .look rfl ?_
  extract_lets keyed
  have hkeyed : Ok (keyed ()) t₁ (Read source s.place) := by
    refine .bind (takeModifier_moves _ h₁) fun _ t₂ ⟨h₂, _⟩ => .ite (fun _ => ?_) fun _ => ?_
    · refine .bind (propertyKey_reads hr h₂) fun key t₃ ⟨h₃, hkey⟩ => ?_
      exact signatureFrom_reads hr h₃ (by simpa using hkey.placed)
    · refine .bind (memberKey_passes hr h₂) fun found t₃ ⟨h₃, hkey⟩ => ?_
      refine .bind (takeMark_moves "?" h₃) fun _ t₄ ⟨h₄, _⟩ => ?_
      refine .look rfl (.ite (fun _ => signatureFrom_reads hr h₄ (by simpa using hkey)) fun _ => ?_)
      refine .bind (typeAnnotation?_moves hr h₄) fun type t₅ ⟨h₅, htype⟩ => ?_
      exact .look rfl (.pure (h₅.node rfl trivial (by simp [hkey, htype])))
  refine .ite (fun _ => ?_) fun _ => hkeyed
  refine .bind (attempt_ok (indexSignature_reads hr h₁)) fun found t₂ h₂ => ?_
  cases found with
  | none => exact (show t₂ = t₁ from h₂) ▸ hkeyed
  | some signature => exact .pure h₂

theorem typeMembers_moves (hr : Readers source r) : Moves source (typeMembers r) (AllPlaced source) := by
  refine runUntil_nodes "\x7d" fun lo floor s h => ?_
  refine .bind ((typeMember_reads hr).moves h) fun m t₁ ⟨h₁, hm⟩ => ?_
  refine .bind (takeMark_moves "," h₁) fun _ t₂ ⟨h₂, _⟩ => ?_
  exact .ite (fun _ => .pure ⟨h₂, hm⟩) fun _ => .bind (endStatement_moves h₂) fun _ t₃ ⟨h₃, _⟩ => .pure ⟨h₃, hm⟩

/-! ## Mapped types -/

theorem mappedModifier_moves (word : String) : Moves source (mappedModifier word) fun _ => True := by
  intro lo floor s h
  refine .look rfl (.look rfl (.ite (fun _ => ?_) fun _ => ?_))
  · refine .bind (advance_ok h.here) fun _ t₁ h₁ => ?_
    exact (expectWord_ok h₁.state word).mono fun _ t₂ h₂ => ⟨h.onward h₂.1, trivial⟩
  · exact .bind (takeWord_moves word h) fun _ t₁ h₁ => .pure ⟨h₁.1, trivial⟩

theorem mappedHead_passes : Passes source mappedHead fun _ => True := by
  intro lo floor s h
  refine .bind (expectMark_ok h "\x7b") fun _ t₁ ⟨h₁, _⟩ => ?_
  refine .bind (mappedModifier_moves "readonly" h₁) fun _ t₂ ⟨h₂, _⟩ => ?_
  refine .bind (expectMark_ok h₂ "[") fun _ t₃ ⟨h₃, _⟩ => ?_
  refine .bind (anyWord_reads h₃) fun _ t₄ ⟨h₄, _⟩ => ?_
  exact (expectWord_ok h₄ "in").mono fun _ _ ht => ⟨ht.1, trivial⟩

theorem mappedTypeFrom_reads (hr : Readers source r) (h : At source lo floor s) :
    Ok (mappedTypeFrom r lo) s (Read source lo) := by
  refine .bind (hr.type h) fun keys t₁ ⟨h₁, hkeys⟩ => ?_
  refine .bind (afterWord_nodes "as" hr.type.moves h₁) fun renamed t₂ ⟨h₂, hrenamed⟩ => ?_
  refine .bind (expectMark_ok h₂ "]") fun _ t₃ ⟨h₃, _⟩ => .look rfl (.look rfl ?_)
  extract_lets typed
  have htyped {t} (h : At source lo lo t) : Ok (typed ()) t (Read source lo) := by
    refine .bind (typeAnnotation?_moves hr h) fun type t₄ ⟨h₄, htype⟩ => ?_
    refine .bind (takeMark_moves ";" h₄) fun _ t₅ ⟨h₅, _⟩ => ?_
    refine .bind (takeMark_moves "," h₅) fun _ t₆ ⟨h₆, _⟩ => ?_
    refine .bind (expectMark_ok h₆ "\x7d") fun _ t₇ ⟨h₇, _⟩ => ?_
    exact .look rfl (.pure (h₇.node rfl trivial (by simp [hkeys.placed, hrenamed, htype])))
  refine .ite (fun _ => ?_) fun _ => ?_
  · refine .bind (advance_ok h₃) fun _ t₄ h₄ => ?_
    exact .bind (expectMark_ok h₄.state "?") fun _ t₅ ⟨h₅, _⟩ => htyped h₅
  · exact .bind (takeMark_moves "?" h₃) fun _ t₄ ⟨h₄, _⟩ => htyped h₄

/-! ## Tuples -/

theorem tupleLabel_passes : Passes source tupleLabel fun _ => True := by
  intro lo floor s h
  refine .bind (anyWord_reads h) fun _ t₁ ⟨h₁, _⟩ => ?_
  refine .bind (takeMark_moves "?" h₁) fun _ t₂ ⟨h₂, _⟩ => ?_
  exact (expectMark_ok h₂ ":").mono fun _ _ ht => ⟨ht.1, trivial⟩

theorem tupleItem_reads (hr : Readers source r) : Reads source (tupleItem r) := by
  refine .of_here fun s h => ?_
  refine .look rfl (.bind (takeMark_moves "..." h) fun isRest t₁ ⟨h₁, _⟩ => ?_)
  refine .bind (attempt_moves tupleLabel_passes.moves h₁) fun _ t₂ ⟨h₂, _⟩ => ?_
  refine .bind (hr.type h₂) fun type t₃ ⟨h₃, htype⟩ => ?_
  have hparts : AllPlaced source [type] := by simpa using htype.placed
  refine ifMark_ok h₃ (fun t₄ h₄ _ => .look rfl (.pure (h₄.state.node rfl trivial hparts))) ?_
  exact .ite (fun _ => .look rfl (.pure (h₃.node rfl trivial hparts))) fun _ => .pure ⟨h₃, htype⟩

/-! ## Types without operators -/

theorem numberType_reads (h : At source lo floor s) (negative : Bool) :
    Ok (numberType lo negative) s (Read source lo) := by
  refine .look rfl ?_
  split
  · rename_i value _
    refine .bind (advance_ok h) fun _ t₁ h₁ => .look rfl (.pure ?_)
    have hnumber := (h₁.state.node (n := .numLit _ (if negative then value.neg else value)) rfl trivial allPlaced_nil).2
    exact h₁.state.node rfl trivial hnumber.placed.one
  · refine .bind (advance_ok h) fun _ t₁ h₁ => .look rfl (.pure ?_)
    have hnumber := (h₁.state.node (n := .other _ []) rfl trivial allPlaced_nil).2
    exact h₁.state.node rfl trivial hnumber.placed.one
  · exact .failHere

theorem typeOptions_moves (hr : Readers source r) :
    Moves source (typeOptions r) fun options => AllPlaced source options.toList := by
  intro lo floor s h
  refine .bind (takeMark_moves "," h) fun _ t₁ ⟨h₁, _⟩ => .ite (fun _ => ?_) fun _ => .pure ⟨h₁, allPlaced_nil⟩
  refine .look rfl (.bind (given_nodes _ (hr.assignment true false).moves h₁) fun options t₂ ⟨h₂, hoptions⟩ => ?_)
  exact .bind (takeMark_moves "," h₂) fun _ t₃ ⟨h₃, _⟩ => .pure ⟨h₃, hoptions⟩

theorem importType_reads (hr : Readers source r) (h : At source lo floor s) :
    Ok (importType r lo) s (Read source lo) := by
  refine .bind (expectWord_ok h "import") fun _ t₁ ⟨h₁, _⟩ => ?_
  refine .bind (expectMark_ok h₁ "(") fun _ t₂ ⟨h₂, _⟩ => ?_
  refine .bind (stringLiteral_reads h₂) fun _ t₃ ⟨h₃, _⟩ => ?_
  refine .bind (typeOptions_moves hr h₃) fun options t₄ ⟨h₄, hoptions⟩ => ?_
  refine .bind (expectMark_ok h₄ ")") fun _ t₅ ⟨h₅, _⟩ => ?_
  extract_lets last
  have hlast {t} (h : At source lo lo t) : Ok (last ()) t (Read source lo) := by
    refine .bind (argumentsOfReference_moves hr h) fun args t₆ ⟨h₆, hargs⟩ => ?_
    exact .look rfl (.pure (h₆.node rfl trivial (allPlaced_append.2 ⟨hargs, hoptions⟩)))
  refine ifMark_ok h₅ (fun t₆ h₆ _ => ?_) (hlast h₅)
  exact .bind (entityName_passes h₆.state) fun _ t₇ ⟨h₇, _⟩ => hlast h₇

theorem queryType_reads (hr : Readers source r) (h : At source lo floor s) :
    Ok (queryType r lo) s (Read source lo) := by
  refine .bind (expectWord_ok h "typeof") fun _ t₁ ⟨h₁, _⟩ => ?_
  refine .look rfl (.ite (fun _ => importType_reads hr h₁) fun _ => ?_)
  refine .bind (entityName_passes h₁) fun _ t₂ ⟨h₂, _⟩ => ?_
  refine .bind (argumentsOfReference_moves hr h₂) fun args t₃ ⟨h₃, hargs⟩ => ?_
  exact .look rfl (.pure (h₃.node rfl trivial hargs))

theorem wordType_reads (hr : Readers source r) (h : At source s.place floor s) (name : String) :
    Ok (wordType r s.token name) s (Read source s.place) := by
  refine .look rfl ?_
  extract_lets isPath _ named
  have hnamed : Ok (named ()) s (Read source s.place) := by
    refine .ite (fun _ => queryType_reads hr h) fun _ => ?_
    refine .ite (fun _ => importType_reads hr h) fun _ => ?_
    exact .ite (fun _ => .failHere_bind) fun _ => typeReference_reads hr h
  refine .ite (fun _ => ?_) fun _ => hnamed
  refine .ite (fun _ => token_reads h rfl trivial allPlaced_nil) fun _ => ?_
  refine .ite (fun _ => ?_) fun _ => .ite (fun _ => token_reads h rfl trivial allPlaced_nil) fun _ => hnamed
  refine .bind (advance_ok h) fun _ t₁ h₁ => .pure ?_
  have hliteral := (h₁.node (n := .boolLit s.token.span (name == "true")) rfl trivial allPlaced_nil).2
  exact h₁.node rfl trivial hliteral.placed.one

theorem primaryType_reads (hr : Readers source r) : Reads source (primaryType r) := by
  refine .of_here fun s h => ?_
  refine .look rfl ?_
  dsimp only
  split
  · exact wordType_reads hr h _
  · rename_i value _
    refine .bind (advance_ok h) fun _ t₁ h₁ => .pure ?_
    have hliteral := (h₁.node (n := .strLit s.token.span value) rfl trivial allPlaced_nil).2
    exact h₁.node rfl trivial hliteral.placed.one
  · exact numberType_reads h false
  · exact numberType_reads h false
  refine ifMark_ok h (fun t₁ h₁ _ => numberType_reads h₁.state true) ?_
  refine .ite (fun _ => ?_) fun _ => .ite (fun _ => ?_) fun _ => ?_
  · refine .bind (template_passes hr.type h) fun found t₁ ⟨h₁, hparts⟩ => .look rfl (.pure ?_)
    have htemplate := (h₁.node (n := .template _ found.1 found.2) rfl trivial hparts).2
    exact h₁.node rfl trivial htemplate.placed.one
  · refine .bind (attempt_ok (mappedHead_passes h)) fun found t₁ h₁ => .ite (fun hfound => ?_) fun hfound => ?_
    · cases found with
      | none => cases hfound
      | some => exact mappedTypeFrom_reads hr h₁.1
    · cases found with
      | some => exact absurd rfl hfound
      | none =>
        obtain rfl : t₁ = s := h₁
        refine .bind (advance_ok h) fun _ t₂ h₂ => ?_
        refine .bind (typeMembers_moves hr h₂.state) fun members t₃ ⟨h₃, hmembers⟩ => ?_
        exact .look rfl (.pure (h₃.node rfl trivial hmembers))
  refine ifMark_ok h (fun t₁ h₁ _ => ?_) (ifMark_ok h (fun t₁ h₁ _ => ?_) .failHere)
  · refine .bind (itemsUntil_nodes "]" (tupleItem_reads hr).moves h₁.state) fun items t₂ ⟨h₂, hitems⟩ => ?_
    exact .look rfl (.pure (h₂.node rfl trivial hitems))
  · refine .bind (hr.type h₁.state) fun inner t₂ ⟨h₂, hinner⟩ => ?_
    refine .bind (expectMark_ok h₂ ")") fun _ t₃ ⟨h₃, _⟩ => ?_
    exact .look rfl (.pure (h₃.node rfl trivial (by simp [hinner.placed])))

theorem postfixType_reads (hr : Readers source r) : Reads source (postfixType r) := by
  refine .of_here fun s h => ?_
  refine .look rfl (.bind (primaryType_reads hr h) fun first t₁ hfirst => ?_)
  refine extend_ok (I := Read source s.place) (fun type s' ⟨h, htype⟩ => ?_) hfirst
  refine .look rfl (.ite (fun _ => .pure ⟨h, htype⟩) fun _ => ?_)
  refine ifMark_ok h (fun t₂ h₂ _ => ?_) (.pure ⟨h, htype⟩)
  refine ifMark_ok h₂.state (fun t₃ h₃ _ => ?_) ?_
  · exact .look rfl (.pure (h₃.state.node rfl trivial (by simpa using htype.placed)))
  · refine .bind (hr.type h₂.state) fun index t₃ ⟨h₃, hindex⟩ => ?_
    refine .bind (expectMark_ok h₃ "]") fun _ t₄ ⟨h₄, _⟩ => ?_
    exact .look rfl (.pure (h₄.node rfl trivial (by simp [htype.placed, hindex.placed])))

/-! ## Operators -/

theorem inferredType_reads (hr : Readers source r) (h : At source lo floor s) (conditional : Bool) :
    Ok (inferredType r lo conditional) s (Read source lo) := by
  refine .bind (identifier_reads _ h) fun _ t₁ ⟨h₁, _⟩ => ?_
  refine .bind (attempt_moves (V := Placed source) (fun lo floor s h => ?_) h₁) fun bound t₂ ⟨h₂, hbound⟩ => ?_
  · refine .bind (expectWord_ok h.here "extends") fun _ t₁ ⟨h₁, _⟩ => ?_
    refine .bind (hr.unconditionalType h₁) fun type t₂ htype => .look rfl ?_
    exact .ite (fun _ => .failHere_bind) fun _ => .pure (Read.moved h htype)
  · exact .look rfl (.pure (h₂.node rfl trivial fun n hn => hbound n (Option.mem_toList.1 hn)))

/-- words before a type start at boundaries that reading has passed -/
theorem typeOperators_ok (h : At source lo floor s) : Ok (many typeOperator?) s fun starts t =>
    At source lo s.seen t ∧ ∀ a ∈ starts, lo ≤ a ∧ a ≤ t.seen ∧ Boundary source a := by
  refine many_ok (J := fun s => At source lo s.seen s)
    (I := fun s starts t => At source lo s.seen t ∧ ∀ a ∈ starts, lo ≤ a ∧ a ≤ t.seen ∧ Boundary source a)
    (fun s h => ?_) h.now
  refine .look rfl (.ite (fun _ => ?_) fun _ => .pure ⟨h, by simp⟩)
  refine .bind (advance_ok h.here) fun _ t ht => .pure ⟨(h.onward ht.state).now, fun as u ⟨hu, has⟩ => ?_⟩
  have hseen : s.place ≤ u.seen := ht.state.floor_le.trans hu.floor_le
  refine ⟨⟨hu.sound, hu.boundary, hu.lo_le, h.sound.seen_le.trans hseen⟩, List.forall_mem_cons.2 ⟨?_, has⟩⟩
  exact ⟨h.lo_le, hseen, h.sound.boundary_place⟩

/-- each word before a type makes a node of its own, from the word to the end of the type -/
theorem fits_modifiedTypes {hi : Nat} {starts : List Nat} {inner : Node} (hinner : inner.Fits source lo hi)
    (hb : Boundary source hi) (hstarts : ∀ a ∈ starts, lo ≤ a ∧ a ≤ hi ∧ Boundary source a) :
    (starts.foldr (fun start type => .modifiedType ⟨start, hi⟩ type) inner).Fits source lo hi := by
  induction starts with
  | nil => exact hinner
  | cons start starts ih =>
    obtain ⟨⟨hlo, hle, hstart⟩, hstarts⟩ := List.forall_mem_cons.1 hstarts
    exact .of_span rfl ⟨hlo, hle, Nat.le_refl _, hstart, hb⟩ trivial (ih hstarts).placed.one

theorem operatorType_reads (hr : Readers source r) (conditional : Bool) :
    Reads source (operatorType r conditional) := by
  refine .of_here fun s h => ?_
  refine .bind (typeOperators_ok h) fun starts t₁ ⟨h₁, hstarts⟩ => .look rfl ?_
  extract_lets build
  have hbuild {inner t} (hinner : Read source t₁.place inner t) : Ok (build inner) t (Read source s.place) := by
    have hwhole := Read.lower h₁ hinner
    refine .look rfl (.pure ⟨hwhole.1, ?_⟩)
    have hle : t₁.seen ≤ t.seen := h₁.sound.seen_le.trans hinner.1.floor_le
    exact fits_modifiedTypes hwhole.2 hwhole.1.sound.seen fun a ha =>
      ⟨(hstarts a ha).1, (hstarts a ha).2.1.trans hle, (hstarts a ha).2.2⟩
  refine ifWord_ok h₁.here (fun t₂ h₂ _ => ?_) ?_
  · exact .bind (inferredType_reads hr h₂.state conditional) fun _ _ => hbuild
  · exact .bind (postfixType_reads hr h₁.here) fun _ _ => hbuild

theorem joinedTypes_reads (mark : String) (build : Span → List Node → Node) {item : Parse Node}
    (hitem : Reads source item) (hspan : ∀ span parts, (build span parts).span = span)
    (hparts : ∀ span parts, (build span parts).PartsPlaced source)
    (hchildren : ∀ span parts, (build span parts).children = parts) : Reads source (joinedTypes mark build item) := by
  refine .of_here fun s h => ?_
  refine .look rfl (.bind (takeMark_moves mark h) fun _ t₁ ⟨h₁, _⟩ => ?_)
  refine .bind (hitem h₁) fun first t₂ ⟨h₂, hfirst⟩ => ?_
  have hothers := many_nodes (afterMark_nodes mark hitem.moves)
  refine .bind (hothers.keep h₂ hfirst) fun others t₃ ⟨h₃, hothers, hfirst⟩ => ?_
  refine .ite (fun _ => .pure ⟨h₃, hfirst⟩) fun _ => .look rfl (.pure (h₃.node (hspan _ _) (hparts _ _) ?_))
  rw [hchildren]
  simp [hfirst.placed, hothers]

theorem functionType?_offers (hr : Readers source r) : Offers source (functionType? r) := by
  refine .of_here fun s h => ?_
  refine .look rfl ?_
  dsimp only
  refine .look rfl (.ite (fun _ => ?_) fun _ => .ite (fun _ => ?_) fun _ => .ite (fun _ => ?_) fun _ => ?_)
  · refine .bind (advance_ok h) fun _ t₁ h₁ => .bind (advance_ok h₁.state) fun _ t₂ h₂ => ?_
    exact .bind (functionTypeFrom_reads hr h₂.state) fun _ _ ht => .pure ht
  · refine .bind (advance_ok h) fun _ t₁ h₁ => ?_
    exact .bind (functionTypeFrom_reads hr h₁.state) fun _ _ ht => .pure ht
  · exact .bind (functionTypeFrom_reads hr h) fun _ _ ht => .pure ht
  · refine .ite (fun _ => ?_) fun _ => .pure h
    refine (attempt_ok (functionTypeFrom_reads hr h)).mono fun found t ht => ?_
    cases found with
    | none => exact (show t = s from ht) ▸ h
    | some type => exact ht

theorem unconditionalType_reads (hr : Readers source r) (conditional : Bool) :
    Reads source (unconditionalType r conditional) := by
  refine .of_here fun s h => ?_
  refine .bind (functionType?_offers hr h) fun found t₁ h₁ => ?_
  cases found with
  | some type => exact .pure h₁
  | none =>
    have hand := joinedTypes_reads "&" .intersectionType (operatorType_reads hr conditional)
      (fun _ _ => rfl) (fun _ _ => trivial) fun _ _ => rfl
    exact joinedTypes_reads "|" .unionType hand (fun _ _ => rfl) (fun _ _ => trivial) (fun _ _ => rfl) h₁

theorem type_reads (hr : Readers source r) : Reads source (type r) := by
  refine .of_here fun s h => ?_
  refine .look rfl (.bind (unconditionalType_reads hr true h) fun checked t₁ ⟨h₁, hchecked⟩ => ?_)
  refine .look rfl (.ite (fun _ => ?_) fun _ => .pure ⟨h₁, hchecked⟩)
  refine .bind (advance_ok h₁) fun _ t₂ h₂ => ?_
  refine .bind (hr.unconditionalType h₂.state) fun bound t₃ ⟨h₃, hbound⟩ => ?_
  refine .bind (expectMark_ok h₃ "?") fun _ t₄ ⟨h₄, _⟩ => ?_
  refine .bind (hr.type h₄) fun yes t₅ ⟨h₅, hyes⟩ => ?_
  refine .bind (expectMark_ok h₅ ":") fun _ t₆ ⟨h₆, _⟩ => ?_
  refine .bind (hr.type h₆) fun no t₇ ⟨h₇, hno⟩ => ?_
  exact .look rfl (.pure (h₇.node rfl trivial
    (by simp [hchecked.placed, hbound.placed, hyes.placed, hno.placed])))

end TsxWorkbench.Syntax
