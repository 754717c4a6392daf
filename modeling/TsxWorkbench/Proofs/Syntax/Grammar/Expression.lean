/-
Expressions: what each of their readers reads is in place. A chain of accesses and calls and a chain of operators grow
a node from its first part on; the node read so far stays in place while it is part of a larger one.
-/
import TsxWorkbench.Proofs.Syntax.Grammar.Function
import TsxWorkbench.Proofs.Syntax.Grammar.Template
import TsxWorkbench.Proofs.Syntax.Grammar.Jsx
import TsxWorkbench.Syntax.Grammar.Expression

namespace TsxWorkbench.Syntax

open Text Node

variable {source : List Char} {r : Goal → Parse Node} {lo floor : Nat} {s : Reading}

/-! ## Literals -/

theorem regExp_reads : Reads source regExp := by
  refine .of_here fun s h => ?_
  refine .look rfl ?_
  dsimp only
  split
  · exact .throw
  · rename_i n _
    let flags := (s.head.drop (n + 1)).chars.takeWhile isNamePart
    have hrest : ((s.head.drop (n + 1)).drop flags.length).RestOf s.head := (Tail.RestOf.drop _ _).trans (.drop _ _)
    refine .bind (resume_ok h (hrest.trans h.sound.step.head) (h.sound.place_eq.trans_le hrest.offset_le))
      fun _ t ⟨ht, _⟩ => .look rfl (.pure (ht.node ?_ trivial allPlaced_nil))
    rw [h.sound.place_eq]
    rfl

theorem arrayItem_moves (hr : Readers source r) : Moves source (arrayItem r) (Placed source) := by
  intro lo floor s h
  refine .look rfl (.look rfl (.ite (fun _ => .pure ⟨h, h.hole⟩) fun _ => ifMark_ok h.here (fun t₁ h₁ _ => ?_) ?_))
  · refine .bind (hr.assignment true false h₁.state) fun inner t₂ ⟨h₂, hinner⟩ => .look rfl (.pure ?_)
    exact Read.moved h (h₂.node rfl trivial hinner.placed.one)
  · exact (hr.assignment true false).moves h

theorem templateLiteral_reads (hr : Readers source r) : Reads source (templateLiteral r) := by
  refine .of_here fun s h => .look rfl ?_
  refine .bind (template_passes (hr.expression true) h) fun found t ⟨ht, hparts⟩ => ?_
  exact .look rfl (.pure (ht.node rfl trivial hparts))

/-! ## Primary expressions -/

variable {primary : Parse Node}

/-- the node that `new` builds something of, grown by members and indices -/
theorem constructFrom_reads (hr : Readers source r) (hprimary : Reads source primary) (h : At source lo floor s) :
    Ok (constructFrom r lo primary) s (Read source lo) := by
  refine .bind (expectWord_ok h "new") fun _ t₁ ⟨h₁, _⟩ => ifMark_ok h₁ (fun t₂ h₂ _ => ?_) (.look rfl ?_)
  · refine .bind (anyWord_reads h₂.state) fun _ t₃ ⟨h₃, _⟩ => ?_
    exact .look rfl (.pure (h₃.node rfl trivial allPlaced_nil))
  extract_lets built
  have hbuilt {first t} (hfirst : Read source t₁.place first t) : Ok (built first) t (Read source lo) := by
    refine .bind (extend_ok (I := Read source t₁.place) (K := Read source t₁.place)
      (fun base t ⟨ht, hbase⟩ => ?_) hfirst) fun callee t₂ ⟨h₂, hcallee⟩ => ?_
    · refine ifMark_ok ht (fun t₂ h₂ _ => ?_) (ifMark_ok ht (fun t₂ h₂ _ => ?_) (.look rfl ?_))
      · refine .bind (propertyKey_reads hr h₂.state) fun key t₃ ⟨h₃, hkey⟩ => ?_
        exact .look rfl (.pure (h₃.node rfl trivial (by simp [hbase.placed, hkey.placed])))
      · refine .bind (hr.expression true h₂.state) fun index t₃ ⟨h₃, hindex⟩ => ?_
        refine .bind (expectMark_moves "]" h₃) fun _ t₄ ⟨h₄, _⟩ => .look rfl (.look rfl (.pure ?_))
        have hkey := (h₄.node (n := .computed _ index) rfl trivial hindex.placed.one).2.placed
        exact h₄.node rfl trivial (allPlaced_cons.2 ⟨hbase.placed, hkey.one⟩)
      · refine .ite (fun _ => ?_) fun _ => .pure ⟨ht, hbase⟩
        refine .bind (advance_moves.keep ht hbase) fun _ t₂ ⟨h₂, _, hbase⟩ => ?_
        exact .look rfl (.pure (h₂.node rfl hbase.span hbase.placed.one))
    · refine .look rfl (.look rfl ?_)
      refine .bind (given_moves _ (attempt_moves (typeArguments_passes hr).moves) h₂) fun types t₃ ⟨h₃, htypes⟩ => ?_
      have htypes : AllPlaced source (types.join.getD []) := allPlaced_getD fun ns hns =>
        htypes (some ns) (Option.join_eq_some_iff.1 hns) ns rfl
      refine .bind (afterMark_moves "(" (callArguments_moves hr) h₃) fun args t₄ ⟨h₄, hargs⟩ => ?_
      exact .look rfl (.pure ((h₁.passed h₄).node rfl trivial
        (by simp [hcallee.placed, htypes, allPlaced_getD hargs])))
  refine .ite (fun _ => ?_) fun _ => ?_
  · exact .bind (hr.unary h₁.here) fun first t₂ => hbuilt
  · exact .bind (hprimary h₁.here) fun first t₂ => hbuilt

theorem importExpression_reads (hr : Readers source r) (h : At source lo floor s) :
    Ok (importExpression r lo) s (Read source lo) := by
  refine .bind (expectWord_ok h "import") fun _ t₁ ⟨h₁, _⟩ => ?_
  have himported {t} (h : At source lo lo t) : Ok (expectMark "(" >>= fun _ => callArguments r >>= fun args =>
      since lo >>= fun span => pure (.importCall span args)) t (Read source lo) := by
    refine .bind (expectMark_moves "(" h) fun _ t₂ ⟨h₂, _⟩ => ?_
    refine .bind (callArguments_moves hr h₂) fun args t₃ ⟨h₃, hargs⟩ => ?_
    exact .look rfl (.pure (h₃.node rfl trivial hargs))
  refine ifMark_ok h₁ (fun t₂ h₂ _ => ?_) (himported h₁)
  refine .bind (anyWord_reads.moves h₂.state) fun _ t₃ ⟨h₃, _⟩ => .ite (fun _ => ?_) fun _ => ?_
  · exact .look rfl (.pure (h₃.node rfl trivial allPlaced_nil))
  · exact .ite (fun _ => himported h₃) fun _ => .look rfl .failHere_bind

theorem plainWordExpression_reads (hr : Readers source r) (hprimary : Reads source primary)
    (h : At source s.place floor s) (name : String) :
    Ok (plainWordExpression r s.token name primary) s (Read source s.place) := by
  have htoken {n : Node} (hspan : n.span = s.token.span) (hparts : n.PartsPlaced source) (hchildren : n.children = []) :
      Ok (advance >>= fun _ => pure n) s (Read source s.place) :=
    token_reads h hspan hparts (hchildren ▸ allPlaced_nil)
  refine .ite (fun _ => classFrom_reads hr h allPlaced_nil) fun _ => ?_
  refine .ite (fun _ => constructFrom_reads hr hprimary h) fun _ => ?_
  refine .ite (fun _ => importExpression_reads hr h) fun _ => ?_
  refine .ite (fun _ => htoken rfl trivial rfl) fun _ => ?_
  refine .ite (fun _ => htoken rfl trivial rfl) fun _ => ?_
  refine .ite (fun _ => htoken rfl trivial rfl) fun _ => ?_
  exact .ite (fun _ => .failHere_bind) fun _ => htoken rfl trivial rfl

theorem wordExpression_reads (hr : Readers source r) (hprimary : Reads source primary)
    (h : At source s.place floor s) (name : String) :
    Ok (wordExpression r s.token name primary) s (Read source s.place) := by
  have hplain := plainWordExpression_reads hr hprimary h name
  refine .ite (fun _ => ?_) fun _ => .ite (fun _ => ?_) fun _ => hplain
  · exact .bind (functionAfterWord_reads hr h) fun _ _ ht => .pure ht
  · refine .look rfl (.ite (fun _ => ?_) fun _ => hplain)
    refine .bind (advance_ok h) fun _ t₁ h₁ => ?_
    exact .bind (functionAfterWord_reads hr h₁.state) fun _ _ ht => .pure ht

theorem elementExpression_reads (hr : Readers source r) : Reads source (elementExpression r) := by
  intro lo floor s h
  refine .bind (hr.element h) fun node t₁ hnode => .bind hnode.advance fun _ t₂ ⟨h₂, _⟩ => ?_
  exact .look rfl (.ite (fun _ => .failHere_bind) fun _ => .pure h₂)

theorem markExpression_reads (hr : Readers source r) (h : At source s.place floor s) (text : String) :
    Ok (markExpression r s.token text) s (Read source s.place) := by
  unfold markExpression
  extract_lets
  split
  · refine .bind (advance_ok h) fun _ t₁ h₁ => ?_
    refine .bind (hr.expression true h₁.state) fun inner t₂ ⟨h₂, hinner⟩ => ?_
    refine .bind ((expectMark_moves ")").keep h₂ hinner) fun _ t₃ ⟨h₃, _, hinner⟩ => ?_
    exact .look rfl (.pure (h₃.node rfl hinner.span (by simp [hinner.placed])))
  · refine .bind (advance_ok h) fun _ t₁ h₁ => ?_
    refine .bind (itemsUntil_nodes "]" (arrayItem_moves hr) h₁.state) fun items t₂ ⟨h₂, hitems⟩ => ?_
    exact .look rfl (.pure (h₂.node rfl trivial hitems))
  · exact objectLiteral_reads hr h
  · exact templateLiteral_reads hr h
  · exact regExp_reads h
  · exact regExp_reads h
  · exact elementExpression_reads hr h
  · exact elementExpression_reads hr h
  · exact .bind (decorators_moves hr h) fun marks t₁ ⟨h₁, hmarks⟩ => classFrom_reads hr h₁ hmarks
  · exact .failHere

theorem primaryWith_reads (hr : Readers source r) (hprimary : Reads source primary) :
    Reads source (primaryWith r primary) := by
  refine .of_here fun s h => ?_
  refine .look rfl ?_
  split
  · exact token_reads h rfl trivial allPlaced_nil
  · exact token_reads h rfl trivial allPlaced_nil
  · exact token_reads h rfl trivial allPlaced_nil
  · exact token_reads h rfl trivial allPlaced_nil
  · exact wordExpression_reads hr hprimary h _
  · exact markExpression_reads hr h _
  · exact .failHere

theorem primary_reads (hr : Readers source r) : Reads source (Syntax.primary r) :=
  primaryWith_reads hr (primaryWith_reads hr hr.unary)

/-! ## Members and calls -/

theorem callTypeArguments?_moves (hr : Readers source r) :
    Moves source (callTypeArguments? r) fun found => ∀ types ∈ found, AllPlaced source types := by
  refine attempt_moves fun lo floor s h => ?_
  refine .bind ((typeArguments_passes hr).moves h) fun types t ht => .look rfl (.ite (fun _ => .pure ht) fun _ => ?_)
  exact .failHere_bind

theorem memberName_reads : Reads source memberName := by
  refine .of_here fun s h => ?_
  refine .look rfl ?_
  split
  · exact token_reads h rfl trivial allPlaced_nil
  · exact token_reads h rfl trivial allPlaced_nil
  · exact .failHere

theorem indexFrom_reads (hr : Readers source r) (h : At source lo floor s) :
    Ok (indexFrom r lo) s (Read source lo) := by
  refine .bind (expectMark_ok h "[") fun _ t₁ ⟨h₁, _⟩ => ?_
  refine .bind (hr.expression true h₁) fun index t₂ ⟨h₂, hindex⟩ => ?_
  refine .bind (expectMark_ok h₂ "]") fun _ t₃ ⟨h₃, _⟩ => ?_
  exact .look rfl (.pure (h₃.node rfl trivial hindex.placed.one))

theorem access_read {c : Chain} {property : Node} (h : At source lo lo s) (hc : c.node.Placed source)
    (hproperty : property.Placed source) : Read source lo (c.access ⟨lo, s.seen⟩ property).node s := by
  unfold Chain.access
  split <;> exact h.node rfl trivial (by simp [hc, hproperty])

theorem call_read {c : Chain} {args types : List Node} (h : At source lo lo s) (hc : c.node.Placed source)
    (hargs : AllPlaced source args) (htypes : AllPlaced source types) :
    Read source lo (c.call ⟨lo, s.seen⟩ args types).node s := by
  unfold Chain.call
  split <;> exact h.node rfl trivial (by simp [hc, hargs, htypes])

theorem linkAfterTypes_reads (hr : Readers source r) {c : Chain} {types : List Node} (h : At source lo lo s)
    (hc : c.node.Placed source) (htypes : AllPlaced source types) :
    Ok (linkAfterTypes r lo c types) s fun c t => Read source lo c.node t := by
  refine ifMark_ok h (fun t₁ h₁ _ => ?_) (.look rfl (.ite (fun _ => ?_) fun _ => ?_))
  · refine .bind (callArguments_moves hr h₁.state) fun args t₂ ⟨h₂, hargs⟩ => ?_
    exact .look rfl (.pure (call_read h₂ hc hargs htypes))
  · refine .bind ((templateLiteral_reads hr).moves h) fun literal t₁ ⟨h₁, hliteral⟩ => ?_
    exact .look rfl (.pure (h₁.node rfl trivial (by simp [hc, hliteral, htypes])))
  · exact .look rfl (.pure (h.node rfl trivial (by simp [hc, htypes])))

/-- a state after a link was read, or the state before if the chain ends there -/
def Linked (source : List Char) (lo : Nat) (c : Chain) (found : Option Chain) (t : Reading) : Prop :=
  Read source lo (found.getD c).node t

theorem link?_reads (hr : Readers source r) {c : Chain} (h : Read source lo c.node s) :
    Ok (link? r lo c) s (Linked source lo c) := by
  obtain ⟨h, hc⟩ := h
  have hlinked {c' types t} (h : At source lo lo t) (hc : c'.node.Placed source) (htypes : AllPlaced source types) :
      Ok (linkAfterTypes r lo c' types >>= fun next => pure (some next)) t (Linked source lo c) :=
    .bind (linkAfterTypes_reads hr h hc htypes) fun _ _ ht => .pure ht
  have htyped {f : Option (List Node) → Parse (Option Chain)} (hnone : f none = pure none)
      (hsome : ∀ types, f (some types) = linkAfterTypes r lo c types >>= fun next => pure (some next)) :
      Ok (callTypeArguments? r >>= f) s (Linked source lo c) := by
    refine .bind ((callTypeArguments?_moves hr).keep h hc) fun found t₁ ⟨h₁, htypes, hc⟩ => ?_
    cases found with
    | none =>
      rw [hnone]
      exact .pure ⟨h₁, hc⟩
    | some types =>
      rw [hsome]
      exact hlinked h₁ hc.placed (htypes types rfl)
  refine .look rfl ?_
  split
  · -- the chain may end early from here on
    refine .bind (advance_moves h) fun _ t₁ ⟨h₁, _⟩ => ?_
    extract_lets opened
    refine .look rfl (.ite (fun _ => .look rfl ?_) fun _ => .look rfl (.look rfl (.ite (fun _ => ?_) fun _ => ?_)))
    · refine .bind (indexFrom_reads hr h₁.here) fun property t₂ ⟨h₂, hproperty⟩ => ?_
      exact .look rfl (.pure (access_read (c := opened) (h₁.passed h₂) hc.placed hproperty.placed))
    · exact hlinked h₁ hc.placed allPlaced_nil
    refine .look rfl (.look rfl (.ite (fun _ => ?_) fun _ => ?_))
    · exact .bind ((typeArguments_passes hr).moves h₁) fun types t₂ ⟨h₂, htypes⟩ => hlinked h₂ hc.placed htypes
    · refine .bind (memberName_reads.moves h₁) fun property t₂ ⟨h₂, hproperty⟩ => ?_
      exact .look rfl (.pure (access_read (c := opened) h₂ hc.placed hproperty))
  · refine .bind (advance_moves h) fun _ t₁ ⟨h₁, _⟩ => ?_
    refine .bind (memberName_reads.moves h₁) fun property t₂ ⟨h₂, hproperty⟩ => ?_
    exact .look rfl (.pure (access_read h₂ hc.placed hproperty))
  · refine .bind (indexFrom_reads hr h.here) fun property t₁ ⟨h₁, hproperty⟩ => ?_
    exact .look rfl (.pure (access_read (h.passed h₁) hc.placed hproperty.placed))
  · refine .ite (fun _ => .pure ⟨h, hc⟩) fun _ => ?_
    refine .bind (advance_moves.keep h hc) fun _ t₁ ⟨h₁, _, hc⟩ => ?_
    exact .look rfl (.pure (h₁.node rfl hc.span hc.placed.one))
  · exact hlinked h hc.placed allPlaced_nil
  · exact hlinked h hc.placed allPlaced_nil
  · exact htyped rfl fun _ => rfl
  · exact htyped rfl fun _ => rfl
  · exact .pure ⟨h, hc⟩

/-- the word that a chain may start with besides its first part -/
theorem superAccess_reads (hr : Readers source r) (h : At source lo floor s) :
    Ok (superAccess r lo) s (Read source lo) := by
  refine .bind (expectWord_ok h "super") fun _ t₁ ⟨h₁, _⟩ => ifMark_ok h₁ (fun t₂ h₂ _ => ?_) (.look rfl ?_)
  · refine .bind (memberName_reads h₂.state) fun property t₃ ⟨h₃, hproperty⟩ => ?_
    exact .look rfl (.pure (h₃.node rfl trivial hproperty.placed.one))
  refine .ite (fun _ => .look rfl ?_) fun _ => .look rfl (.pure (h₁.node rfl trivial allPlaced_nil))
  refine .bind (indexFrom_reads hr h₁.here) fun property t₂ ⟨h₂, hproperty⟩ => ?_
  exact .look rfl (.pure ((h₁.passed h₂).node rfl trivial hproperty.placed.one))

theorem accessChain_reads (hr : Readers source r) : Reads source (accessChain r) := by
  refine .of_here fun s h => ?_
  refine .look rfl (.look rfl ?_)
  extract_lets linked
  have hlinked {first t} (ht : Read source s.place first t) : Ok (linked first) t (Read source s.place) := by
    refine .bind (extend_ok (I := fun c t => Read source s.place c.node t)
      (K := fun c t => Read source s.place c.node t) (fun c t ht => ?_) ht) fun c t ht => .pure ht
    refine (link?_reads hr ht).mono fun found u hu => ?_
    cases found <;> exact hu
  refine .ite (fun _ => ?_) fun _ => ?_
  · exact .bind (superAccess_reads hr h) fun first t => hlinked
  · exact .bind (primary_reads hr h) fun first t => hlinked

/-! ## Operators -/

theorem unary_reads (hr : Readers source r) : Reads source (unary r) := by
  refine .of_here fun s h => ?_
  refine .look rfl ?_
  extract_lets place operated
  have hoperated : Ok (operated ()) s (Read source s.place) := by
    refine .bind (accessChain_reads hr h) fun operand t₁ ⟨h₁, hoperand⟩ => ?_
    refine .look rfl (.ite (fun _ => ?_) fun _ => .pure ⟨h₁, hoperand⟩)
    refine .bind (advance_ok h₁) fun _ t₂ h₂ => ?_
    exact .look rfl (.pure (h₂.state.node rfl trivial hoperand.placed.one))
  -- an operator before its operand
  have hbefore {n : Span → Node → Node} (hspan : ∀ span operand, (n span operand).span = span)
      (hparts : ∀ span operand, (n span operand).PartsPlaced source)
      (hchildren : ∀ span operand, (n span operand).children = [operand]) {t} (h : At source s.place s.place t) :
      Ok (r .unary >>= fun operand => since place >>= fun span => pure (n span operand)) t (Read source s.place) := by
    refine .bind (hr.unary h) fun operand t₁ ⟨h₁, hoperand⟩ => .look rfl (.pure ?_)
    exact h₁.node (hspan _ _) (hparts _ _) (hchildren _ _ ▸ hoperand.placed.one)
  have hunary (op : String) := @hbefore (Node.unary · op ·) (fun _ _ => rfl) (fun _ _ => trivial) fun _ _ => rfl
  have hother := @hbefore (Node.other · [·]) (fun _ _ => rfl) (fun _ _ => trivial) fun _ _ => rfl
  split
  · refine .ite (fun _ => ?_) fun _ => .ite (fun _ => ?_) fun _ => hoperated
    · exact .bind (advance_ok h) fun _ t₁ h₁ => hunary _ h₁.state
    · exact .bind (advance_ok h) fun _ t₁ h₁ => hother h₁.state
  · refine .ite (fun _ => ?_) fun _ => .ite (fun _ => ?_) fun _ => hoperated
    · exact .bind (advance_ok h) fun _ t₁ h₁ => hunary _ h₁.state
    · refine .bind (advance_ok h) fun _ t₁ h₁ => .look rfl (.ite (fun _ => ?_) fun _ => hother h₁.state)
      exact .pure (h₁.node rfl trivial allPlaced_nil)
  · exact hoperated

theorem currentOperator?_ok (allowIn : Bool) : Ok (currentOperator? allowIn) s fun _ t => t = s := by
  refine .look rfl ?_
  split
  · exact .pure rfl
  · exact .ite (fun _ => .pure rfl) fun _ => .ite (fun _ => .pure rfl) fun _ => .pure rfl
  · exact .pure rfl

theorem binary_reads (hr : Readers source r) (above : Nat) (allowIn : Bool) :
    Reads source (binary r above allowIn) := by
  refine .of_here fun s h => ?_
  refine .look rfl (.bind (hr.unary h) fun first t hfirst => ?_)
  refine extend_ok (I := Read source s.place) (fun left t ⟨ht, hleft⟩ => ?_) hfirst
  refine .peek (currentOperator?_ok allowIn) fun found => ?_
  split
  · exact .pure ⟨ht, hleft⟩
  refine .ite (fun _ => .pure ⟨ht, hleft⟩) fun _ => ?_
  refine .bind (advance_moves.keep ht hleft) fun _ t₁ ⟨h₁, _, hleft⟩ => .look rfl ?_
  refine .ite (fun _ => ?_) fun _ => .ite (fun _ => ?_) fun _ => ?_
  · refine .bind (advance_moves.keep h₁ hleft) fun _ t₂ ⟨h₂, _, hleft⟩ => ?_
    exact .look rfl (.pure (h₂.node rfl hleft.span (by simp [hleft.placed])))
  · refine .bind (hr.type.moves.keep h₁ hleft) fun type t₂ ⟨h₂, htype, hleft⟩ => ?_
    exact .look rfl (.pure (h₂.node rfl hleft.span (by simp [hleft.placed, htype])))
  · refine .bind ((hr.binary _ allowIn).moves.keep h₁ hleft) fun right t₂ ⟨h₂, hright, hleft⟩ => ?_
    exact .look rfl (.pure (h₂.node rfl trivial (by simp [hleft.placed, hright])))

/-! ## Arrow functions -/

/-- a state after a node was read, or the state before if that failed -/
def Tried (source : List Char) (lo : Nat) (s : Reading) (found : Option Node) (t : Reading) : Prop :=
  match found with
  | none => t = s
  | some n => Read source lo n t

theorem arrow_moves : Moves source arrow fun _ => True := by
  intro lo floor s h
  exact .look rfl (.ite (fun _ => .failHere_bind) fun _ => expectMark_moves "=>" h)

/-- the nodes in the head of an arrow function -/
def ArrowHead.Placed (source : List Char) (head : ArrowHead) : Prop :=
  AllPlaced source head.params ∧ AllPlaced source head.types

theorem arrowHead_moves (hr : Readers source r) : Moves source (arrowHead r) (ArrowHead.Placed source) := by
  intro lo floor s h
  refine .bind (typeParameters_moves hr h) fun types t₁ ⟨h₁, htypes⟩ => ?_
  refine .bind (expectMark_moves "(" h₁) fun _ t₂ ⟨h₂, _⟩ => ?_
  refine .bind (parameters_moves hr h₂) fun params t₃ ⟨h₃, hparams⟩ => ?_
  refine .bind (resultAnnotation?_moves hr h₃) fun result t₄ ⟨h₄, hresult⟩ => ?_
  exact .bind (arrow_moves h₄) fun _ t₅ ⟨h₅, _⟩ => .pure ⟨h₅, hparams, by simp [htypes, hresult]⟩

theorem arrowBody_reads (hr : Readers source r) (h : At source lo floor s) (allowIn : Bool) {head : ArrowHead}
    (hhead : head.Placed source) : Ok (arrowBody r lo allowIn head) s (Read source lo) := by
  refine .look rfl ?_
  extract_lets finish
  have hfinish {body t} (hbody : Read source lo body t) : Ok (finish body) t (Read source lo) :=
    .look rfl (.pure (hbody.1.node rfl trivial (by simp [hhead.1, hhead.2, hbody.2.placed])))
  refine .ite (fun _ => ?_) fun _ => ?_
  · exact .bind (hr.block h) fun body t => hfinish
  · exact .bind (hr.assignment allowIn false h) fun body t => hfinish

/-- a reading that is set back to where it started -/
theorem set_ok {start : Reading} {p : Parse α} {Q : α → Reading → Prop} (h : Ok p start Q) :
    Ok (set start >>= fun _ => p) s Q := h

theorem parenthesizedArrow_ok (hr : Readers source r) (h : At source lo floor s) (allowIn beforeColon : Bool) :
    Ok (parenthesizedArrow r lo allowIn beforeColon) s fun found => Tried source lo s found.toOption := by
  refine .look rfl (.bind (tryRead_ok (arrowHead_moves hr h)) fun found t₁ ht₁ => ?_)
  cases found with
  | error failure => exact .pure ht₁
  | ok head =>
    obtain ⟨h₁, hhead⟩ := ht₁
    have hbody := arrowBody_reads hr h₁ allowIn hhead
    refine .ite (fun _ => ?_) fun _ => .bind hbody fun n t₂ hn => .pure hn
    refine .bind (tryRead_ok (Q := Read source lo) (.bind hbody fun n t₂ hn => .look rfl ?_)) fun whole t₂ ht₂ => ?_
    · exact .ite (fun _ => .pure hn) fun _ => .look rfl .failHere_bind
    · cases whole with
      | error failure => exact set_ok (.pure rfl)
      | ok n => exact .pure ht₂

theorem bareArrow?_ok (hr : Readers source r) (h : At source lo floor s) (allowIn : Bool) :
    Ok (bareArrow? r lo allowIn) s (Tried source lo s) := by
  refine .look rfl ?_
  split
  · exact .pure rfl
  refine .look rfl (.ite (fun _ => ?_) fun _ => .pure rfl)
  refine .bind (advance_ok h) fun _ t₁ h₁ => .bind (advance_ok h₁.state) fun _ t₂ h₂ => ?_
  have hname (name : String) : (Node.binding s.token.span name none).Placed source :=
    (h₁.node (n := .binding _ name none) rfl trivial allPlaced_nil).2.placed
  refine .bind (arrowBody_reads hr h₂.state allowIn ⟨(hname _).one, allPlaced_nil⟩) fun n t₃ hn => .pure hn

theorem asyncArrow?_ok (hr : Readers source r) (h : At source lo floor s) (allowIn beforeColon : Bool) :
    Ok (asyncArrow? r lo allowIn beforeColon) s (Tried source lo s) := by
  refine .look rfl (.ite (fun _ => .look rfl (.ite (fun _ => .pure rfl) fun _ => .look rfl ?_)) fun _ => .pure rfl)
  refine .bind (advance_ok h) fun _ t₁ h₁ => ?_
  extract_lets back
  have hback {t} : Ok (back ()) t (Tried source lo s) := set_ok (.pure rfl)
  refine .ite (fun _ => ?_) fun _ => ?_
  · refine .bind (parenthesizedArrow_ok hr h₁.state allowIn beforeColon) fun found t₂ ht₂ => ?_
    cases found with
    | error failure => exact hback
    | ok n => exact .pure ht₂
  · refine .bind (bareArrow?_ok hr h₁.state allowIn) fun found t₂ ht₂ => ?_
    cases found with
    | none => exact hback
    | some n => exact .pure ht₂

/-! ## Assignments -/

theorem plainAssignment_reads (hr : Readers source r) (h : At source s.place floor s) (allowIn : Bool) :
    Ok (plainAssignment r s.place allowIn) s (Read source s.place) := by
  refine .bind (binary_reads hr 0 allowIn h) fun left t₁ ⟨h₁, hleft⟩ => ?_
  refine ifMark_ok h₁ (fun t₂ h₂ _ => ?_) (.look rfl ?_)
  · refine .bind (hr.assignment true true h₂.state) fun yes t₃ ⟨h₃, hyes⟩ => ?_
    refine .bind (expectMark_ok h₃ ":") fun _ t₄ ⟨h₄, _⟩ => ?_
    refine .bind (hr.assignment allowIn false h₄) fun no t₅ ⟨h₅, hno⟩ => ?_
    exact .look rfl (.pure (h₅.node rfl trivial (by simp [hleft.placed, hyes.placed, hno.placed])))
  split
  · refine .ite (fun _ => ?_) fun _ => .pure ⟨h₁, hleft⟩
    refine .bind (advance_ok h₁) fun _ t₂ h₂ => ?_
    refine .bind (hr.assignment allowIn false h₂.state) fun value t₃ ⟨h₃, hvalue⟩ => .look rfl (.pure ?_)
    refine h₃.node rfl trivial (allPlaced_cons.2 ⟨?_, hvalue.placed.one⟩)
    split_ifs
    · exact (fits_asTarget hleft).placed
    · exact hleft.placed
  · exact .pure ⟨h₁, hleft⟩

theorem yieldExpression_reads (hr : Readers source r) (h : At source lo floor s) (allowIn : Bool) :
    Ok (yieldExpression r lo allowIn) s (Read source lo) := by
  refine .bind (expectWord_ok h "yield") fun _ t₁ ⟨h₁, _⟩ => ?_
  refine .bind (takeMark_moves "*" h₁) fun _ t₂ ⟨h₂, _⟩ => .look rfl ?_
  refine .ite (fun _ => .look rfl (.pure (h₂.node rfl trivial allPlaced_nil))) fun _ => ?_
  refine .bind (hr.assignment allowIn false h₂) fun inner t₃ ⟨h₃, hinner⟩ => ?_
  exact .look rfl (.pure (h₃.node rfl trivial hinner.placed.one))

theorem bracketAssignment_reads (hr : Readers source r) (h : At source s.place floor s) (allowIn beforeColon : Bool) :
    Ok (bracketAssignment r s.place allowIn beforeColon) s (Read source s.place) := by
  refine .peek elementFailure_ok fun failure => ?_
  refine .bind (tryRead_ok (plainAssignment_reads hr h allowIn)) fun found t₁ ht₁ => ?_
  cases found with
  | ok n => exact .pure ht₁
  | error _ =>
    obtain rfl : t₁ = _ := ht₁
    refine .bind (parenthesizedArrow_ok hr h allowIn beforeColon) fun found t₂ ht₂ => ?_
    cases found with
    | ok n => exact .pure ht₂
    | error _ => exact .throw

theorem assignment_reads (hr : Readers source r) (allowIn beforeColon : Bool) :
    Reads source (assignment r allowIn beforeColon) := by
  refine .of_here fun s h => ?_
  have hplain := plainAssignment_reads hr h allowIn
  refine .look rfl (.ite (fun _ => bracketAssignment_reads hr h allowIn beforeColon) fun _ => ?_)
  refine .ite (fun _ => yieldExpression_reads hr h allowIn) fun _ => ?_
  refine .bind (asyncArrow?_ok hr h allowIn beforeColon) fun found t₁ ht₁ => ?_
  cases found with
  | some n => exact .pure ht₁
  | none =>
    obtain rfl : t₁ = s := ht₁
    refine .bind (bareArrow?_ok hr h allowIn) fun found t₂ ht₂ => ?_
    cases found with
    | some n => exact .pure ht₂
    | none =>
      obtain rfl : t₂ = t₁ := ht₂
      refine .look rfl (.ite (fun _ => ?_) fun _ => hplain)
      refine .bind (parenthesizedArrow_ok hr h allowIn beforeColon) fun found t₃ ht₃ => ?_
      cases found with
      | ok n => exact .pure ht₃
      | error failure =>
        obtain rfl : t₃ = t₂ := ht₃
        refine .bind (tryRead_ok hplain) fun found t₄ ht₄ => ?_
        cases found with
        | ok n => exact .pure ht₄
        | error other => exact .throw_bind

theorem expression_reads (hr : Readers source r) (allowIn : Bool) : Reads source (expression r allowIn) := by
  refine .of_here fun s h => ?_
  refine .look rfl (.bind (hr.assignment allowIn false h) fun first t₁ ⟨h₁, hfirst⟩ => ?_)
  have hothers := many_nodes (afterMark_nodes "," (hr.assignment allowIn false).moves)
  refine .bind (hothers.keep h₁ hfirst) fun others t₂ ⟨h₂, hothers, hfirst⟩ => ?_
  refine .ite (fun _ => .pure ⟨h₂, hfirst⟩) fun _ => ?_
  exact .look rfl (.pure (h₂.node rfl trivial (by simp [hfirst.placed, hothers])))

end TsxWorkbench.Syntax
