/-
Declarations of variables, functions, classes and types: what each of their readers reads is in place.
-/
import TsxWorkbench.Proofs.Syntax.Grammar.Expression
import TsxWorkbench.Syntax.Grammar.Declaration

namespace TsxWorkbench.Syntax

open Text Node

variable {source : List Char} {r : Goal → Parse Node} {lo floor : Nat} {s : Reading}

/-! ## Variables -/

theorem declarator_reads (hr : Readers source r) (allowIn : Bool) : Reads source (declarator r allowIn) := by
  refine .of_here fun s h => ?_
  refine .look rfl (.bind (hr.target h) fun target t₁ ⟨h₁, htarget⟩ => ?_)
  refine .bind ((takeMark_moves "!").keep h₁ htarget) fun _ t₂ ⟨h₂, _, htarget⟩ => ?_
  refine .bind (typeAnnotation?_ok hr h₂ htarget) fun type t₃ ⟨h₃, _, hplain, htyped⟩ => .look rfl ?_
  extract_lets hi typed
  have hbound : typed.Placed source := by
    show (if type.isSome then withType type t₃.seen target else target).Placed source
    split
    · exact htyped.placed
    · exact hplain.placed
  refine .bind (afterMark_nodes "=" (hr.assignment allowIn false).moves h₃) fun initial t₄ ⟨h₄, hinitial⟩ => ?_
  exact .look rfl (.pure (h₄.node rfl trivial (by simp [hbound, hinitial])))

theorem variablesFrom_reads (hr : Readers source r) (h : At source lo floor s) (allowIn : Bool) :
    Ok (variablesFrom r lo allowIn) s (Read source lo) := by
  refine .bind (commaSeparated_passes (declarator_reads hr allowIn).passes h)
    fun declarators t₁ ⟨h₁, hdeclarators⟩ => ?_
  exact .look rfl (.pure (h₁.node rfl trivial hdeclarators))

theorem takeVariableWord_moves : Moves source takeVariableWord fun _ => True := by
  intro lo floor s h
  have hadvance {t} (h : At source lo floor t) : Ok (advance >>= fun _ => pure true) t fun _ t =>
      At source lo floor t ∧ True := .bind (advance_moves h) fun _ t ht => .pure ht
  refine .look rfl (.ite (fun _ => hadvance h) fun _ => .look rfl (.ite (fun _ => hadvance h) fun _ => ?_))
  refine .ite (fun _ => hadvance h) fun _ => .ite (fun _ => .look rfl ?_) fun _ => .pure ⟨h, trivial⟩
  refine .bind (advance_moves h) fun _ t₁ ⟨h₁, _⟩ => .look rfl (.ite (fun _ => hadvance h₁) fun _ => ?_)
  exact set_ok (.pure ⟨h, trivial⟩)

/-! ## Functions and classes -/

theorem startsFunction_ok : Ok startsFunction s fun _ t => t = s :=
  .look rfl (.ite (fun _ => .pure rfl) fun _ => .look rfl (.pure rfl))

theorem startsClass_ok : Ok startsClass s fun _ t => t = s :=
  .look rfl (.ite (fun _ => .pure rfl) fun _ => .look rfl (.pure rfl))

theorem functionDeclaration_reads (hr : Readers source r) : Reads source (functionDeclaration r) := by
  refine .of_here fun s h => ?_
  refine .look rfl (.bind (takeWord_moves "async" h) fun _ t₁ ⟨h₁, _⟩ => ?_)
  refine .bind (functionAfterWord_reads hr h₁) fun found t₂ ⟨h₂, hinner⟩ => ?_
  exact .look rfl (.pure (h₂.node rfl trivial hinner.placed.one))

theorem classDeclaration_reads (hr : Readers source r) (h : At source lo floor s) {marks : List Node}
    (hmarks : AllPlaced source marks) : Ok (classDeclaration r lo marks) s (Read source lo) := by
  refine .bind (decorators_moves hr h) fun more t₁ ⟨h₁, hmore⟩ => ?_
  refine .bind (takeWord_moves "abstract" h₁) fun _ t₂ ⟨h₂, _⟩ => ?_
  exact classFrom_reads hr h₂ (allPlaced_append.2 ⟨hmarks, hmore⟩)

/-! ## Types -/

theorem typeAlias_reads (hr : Readers source r) (h : At source lo floor s) :
    Ok (typeAlias r lo) s (Read source lo) := by
  refine .bind (expectWord_ok h "type") fun _ t₁ ⟨h₁, _⟩ => ?_
  refine .bind (identifier_reads _ h₁) fun _ t₂ ⟨h₂, _⟩ => ?_
  refine .bind (typeParameters_moves hr h₂) fun params t₃ ⟨h₃, hparams⟩ => ?_
  refine .bind (expectMark_ok h₃ "=") fun _ t₄ ⟨h₄, _⟩ => ?_
  refine .bind (hr.type h₄) fun type t₅ ⟨h₅, htype⟩ => ?_
  refine .bind (endStatement_moves h₅) fun _ t₆ ⟨h₆, _⟩ => ?_
  exact .look rfl (.pure (h₆.node rfl trivial (by simp [hparams, htype.placed])))

theorem heritageOfInterface_passes (hr : Readers source r) :
    Passes source (interface.heritageOfInterface r) fun found => found.1.Placed source ∧ AllPlaced source found.2 := by
  intro lo floor s h
  refine .bind (heritage_reads hr h) fun found t ⟨ht, hfound⟩ => ?_
  split
  · exact .pure ⟨ht, allPlaced_cons.1 hfound.placed.children⟩
  · exact .pure ⟨ht, hfound.placed, allPlaced_nil⟩

theorem interface_reads (hr : Readers source r) (h : At source lo floor s) :
    Ok (interface r lo) s (Read source lo) := by
  refine .bind (expectWord_ok h "interface") fun _ t₁ ⟨h₁, _⟩ => ?_
  refine .bind (identifier_reads _ h₁) fun _ t₂ ⟨h₂, _⟩ => ?_
  refine .bind (typeParameters_moves hr h₂) fun params t₃ ⟨h₃, hparams⟩ => ?_
  refine .bind (afterWord_moves "extends" (commaSeparated_passes (heritageOfInterface_passes hr)).moves h₃)
    fun bases t₄ ⟨h₄, hbases⟩ => ?_
  refine .bind (expectMark_ok h₄ "\x7b") fun _ t₅ ⟨h₅, _⟩ => ?_
  refine .bind (typeMembers_moves hr h₅) fun members t₆ ⟨h₆, hmembers⟩ => ?_
  have hbase : ∀ base ∈ bases.getD [], base.1.Placed source ∧ AllPlaced source base.2 := by
    cases bases with
    | none => exact fun base h => absurd h List.not_mem_nil
    | some bases => exact hbases bases rfl
  have htypes : AllPlaced source (params ++ (bases.getD []).flatMap Prod.snd) :=
    allPlaced_append.2 ⟨hparams, fun n hn =>
      have ⟨base, hmem, hn⟩ := List.mem_flatMap.1 hn
      (hbase base hmem).2 n hn⟩
  have hnames : AllPlaced source ((bases.getD []).map Prod.fst) :=
    List.forall_mem_map.2 fun base hmem => (hbase base hmem).1
  exact .look rfl (.pure (h₆.node rfl trivial (allPlaced_append.2 ⟨htypes, allPlaced_append.2 ⟨hnames, hmembers⟩⟩)))

theorem enumMember_reads (hr : Readers source r) : Reads source (enumMember r) := by
  refine .of_here fun s h => ?_
  refine .look rfl (.bind (propertyKey_reads hr h) fun key t₁ ⟨h₁, hkey⟩ => ?_)
  refine .bind (afterMark_nodes "=" (hr.assignment true false).moves h₁) fun value t₂ ⟨h₂, hvalue⟩ => ?_
  exact .look rfl (.pure (h₂.node rfl trivial (by simp [hkey.placed, hvalue])))

theorem enumFrom_reads (hr : Readers source r) (h : At source lo floor s) : Ok (enumFrom r lo) s (Read source lo) := by
  refine .bind (expectWord_ok h "enum") fun _ t₁ ⟨h₁, _⟩ => ?_
  refine .bind (identifier_reads _ h₁) fun _ t₂ ⟨h₂, _⟩ => ?_
  refine .bind (expectMark_ok h₂ "\x7b") fun _ t₃ ⟨h₃, _⟩ => ?_
  refine .bind (itemsUntil_nodes "\x7d" (enumMember_reads hr).moves h₃) fun members t₄ ⟨h₄, hmembers⟩ => ?_
  exact .look rfl (.pure (h₄.node rfl trivial hmembers))

/-! ## Namespaces -/

theorem namespaceName_moves : Moves source namespaceName fun _ => True := by
  intro lo floor s h
  refine .look rfl ?_
  split
  · exact advance_moves h
  · refine .bind (identifier_reads _ h.here) fun found t₁ ⟨h₁, hspan⟩ => ?_
    have hle : found.2.lo ≤ t₁.seen := hspan.le.trans hspan.hi_le
    have hname : At source found.2.lo found.2.lo t₁ := ⟨h₁.sound, hspan.boundary_lo, hle.trans h₁.sound.seen_le, hle⟩
    have hfits : SpanFits source found.2.lo t₁.seen found.2 :=
      ⟨Nat.le_refl _, hspan.le, hspan.hi_le, hspan.boundary_lo, hspan.boundary_hi⟩
    refine .bind (dottedFrom_reads hname (.of_span rfl hfits trivial allPlaced_nil)) fun _ t₂ ⟨h₂, _⟩ =>
      .pure ⟨?_, trivial⟩
    exact h₂.lower (h.lo_le.trans hspan.lo_le) h.boundary (h.floor_le_place.trans hspan.lo_le)

theorem namespaceFrom_reads (hr : Readers source r) (h : At source lo floor s) :
    Ok (namespaceFrom r lo) s (Read source lo) := by
  refine .bind (anyWord_reads h) fun _ t₁ ⟨h₁, _⟩ => .look rfl ?_
  extract_lets filled
  have hfilled {t} (h : At source lo lo t) : Ok (filled ()) t (Read source lo) := by
    refine ifMark_ok h (fun t₂ h₂ _ => ?_) ?_
    · refine .bind (bodyUntilBrace_nodes (hr.statement true).moves h₂.state) fun items t₃ ⟨h₃, hitems⟩ => ?_
      exact .look rfl (.pure (h₃.node rfl trivial hitems))
    · refine .bind (endStatement_moves h) fun _ t₂ ⟨h₂, _⟩ => ?_
      exact .look rfl (.pure (h₂.node rfl trivial allPlaced_nil))
  refine .ite (fun _ => hfilled h₁) fun _ => ?_
  exact .bind (namespaceName_moves h₁) fun _ t₂ ⟨h₂, _⟩ => hfilled h₂

/-! ## Choice -/

theorem typeDeclaration?_ok (hr : Readers source r) (h : At source lo floor s) :
    Ok (typeDeclaration? r lo) s (Tried source lo s) := by
  have hsome {p : Parse Node} {t} (hp : Ok p t (Read source lo)) :
      Ok (p >>= fun n => pure (some n)) t (Tried source lo s) := .bind hp fun _ _ ht => .pure ht
  refine .look rfl (.look rfl (.ite (fun _ => hsome (typeAlias_reads hr h)) fun _ => ?_))
  refine .ite (fun _ => hsome (interface_reads hr h)) fun _ => .ite (fun _ => hsome (enumFrom_reads hr h)) fun _ => ?_
  refine .ite (fun _ => ?_) fun _ => .ite (fun _ => hsome (namespaceFrom_reads hr h)) fun _ => .pure rfl
  exact .bind (advance_ok h) fun _ t₁ h₁ => hsome (enumFrom_reads hr h₁.state)

theorem declaration?_offers (hr : Readers source r) : Offers source (declaration? r) := by
  refine .of_here fun s h => ?_
  refine .look rfl (.look rfl (.look rfl ?_))
  extract_lets declared
  have hdeclared {t} (h : At source s.place s.seen t) : Ok (declared ()) t (Offered source s.place s.seen) := by
    refine .bind (typeDeclaration?_ok hr h) fun found t₁ ht₁ => ?_
    cases found with
    | some n => exact .pure ht₁
    | none =>
      obtain rfl : t₁ = t := ht₁
      refine .peek startsFunction_ok fun _ => .ite (fun _ => ?_) fun _ => ?_
      · exact .bind (functionDeclaration_reads hr h) fun _ _ ht => .pure ht
      refine .peek startsClass_ok fun _ => .ite (fun _ => ?_) fun _ => ?_
      · exact .bind (classDeclaration_reads hr h allPlaced_nil) fun _ _ ht => .pure ht
      refine .bind (takeVariableWord_moves h) fun _ t₂ ⟨h₂, _⟩ => .ite (fun _ => ?_) fun _ => .pure h₂
      refine .bind (variablesFrom_reads hr h₂ true) fun n t₃ ⟨h₃, hn⟩ => ?_
      exact .bind (endStatement_moves.keep h₃ hn) fun _ t₄ ⟨h₄, _, hn⟩ => .pure (b := some n) ⟨h₄, hn⟩
  exact .ite (fun _ => .bind (advance_moves h) fun _ t₁ ⟨h₁, _⟩ => hdeclared h₁) fun _ => hdeclared h

end TsxWorkbench.Syntax
