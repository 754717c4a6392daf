/-
JSX elements and fragments. An element is read up to its last bracket, which stays the current token, and so is a
container up to its brace; what they read is in place up to there. The places that edits work with are settled here:

- `attributes_ok`: the attributes of a tag follow one another, and none of them ends in a blank.
- `childrenUntil_ok`: the children of an element follow one another, and a closing tag comes after them.
- `element_held`: the tags of an element are placed.
-/
import TsxWorkbench.Proofs.Syntax.Grammar.Type
import TsxWorkbench.Syntax.Grammar.Jsx

namespace TsxWorkbench.Syntax

open Text Node

variable {source : List Char} {r : Goal → Parse Node} {lo hi floor : Nat} {s t : Reading}

/-! ## Names -/

theorem isBlank_of_isDashed {c : Char} (h : (isNamePart c || c = '-') = true) : isBlank c = false := by
  rw [Bool.or_eq_true, decide_eq_true_eq] at h
  rcases h with h | rfl
  · exact isBlank_of_isNamePart h
  · decide

theorem dashedName_ok (h : At source lo floor s) : Ok dashedName s fun found t =>
    At source lo lo t ∧ found.2.hi = t.seen ∧ Solid source t.seen := by
  refine .look rfl ?_
  dsimp only
  refine .ite (fun _ => .failHere_bind) fun hname => ?_
  rw [Bool.or_eq_true, not_or, Bool.not_eq_true, Bool.not_eq_true, List.isEmpty_eq_false_iff] at hname
  have hle (n : Nat) : s.place ≤ (s.head.drop n).offset :=
    h.sound.place_eq.trans_le (Tail.RestOf.drop s.head n).offset_le
  refine .bind (resume_ok h ((Tail.RestOf.drop _ _).trans h.sound.step.head) (hle _)) fun _ t ⟨ht, hseen⟩ => ?_
  refine .pure ⟨ht, hseen.symm, hseen ▸ ?_⟩
  exact h.sound.step.head.solid_drop (.takeWhile (fun _ => isBlank_of_isDashed) hname.2)

theorem tagName_ok (h : At source lo floor s) : Ok tagName s fun found t =>
    At source lo lo t ∧ found.2.hi = t.seen ∧ Solid source t.seen := by
  refine .look rfl (.bind (dashedName_ok h) fun first t₁ ⟨h₁, _, hsolid⟩ => ?_)
  refine ifMark_ok h₁ (fun t₂ h₂ _ => ?_) ?_
  · exact .bind (dashedName_ok h₂.state) fun second t₃ ⟨h₃, _, hsolid⟩ => .look rfl (.pure ⟨h₃, rfl, hsolid⟩)
  · refine .bind (extend_ok (I := fun _ t => At source lo lo t ∧ Solid source t.seen)
      (K := fun _ t => At source lo lo t ∧ Solid source t.seen) (fun path s ⟨h, hsolid⟩ => ?_) ⟨h₁, hsolid⟩)
      fun path t₂ ⟨h₂, hsolid⟩ => .look rfl (.pure ⟨h₂, rfl, hsolid⟩)
    refine ifMark_ok h (fun t₂ h₂ _ => ?_) (.pure ⟨h, hsolid⟩)
    exact .bind (anyWord_solid h₂.state) fun _ t₃ h₃ => .pure h₃

/-! ## Containers -/

theorem solid_of_isMark (h : At source lo floor s) {text : String} (hmark : s.token.isMark text = true) :
    Solid source s.past := by
  unfold Token.isMark at hmark
  split at hmark
  · exact h.sound.solid_of_mark ‹_›
  · exact absurd hmark Bool.false_ne_true

theorem containerEnd_ok (h : At source lo floor s) : Ok (containerEnd lo) s fun span t =>
    t = s ∧ span = ⟨lo, s.past⟩ ∧ Solid source s.past := by
  refine .look rfl (.ite (fun hmark => .pure ⟨rfl, rfl, solid_of_isMark h hmark⟩) fun _ => .failHere_bind)

/-- a node up to the current token is in place if its parts are -/
theorem At.held (h : At source lo lo t) (hsolid : Solid source t.past) {n : Node} (hspan : n.span = ⟨lo, t.past⟩)
    (hparts : n.PartsPlaced source) (hchildren : AllPlaced source n.children) : Held source lo n t :=
  ⟨h, .of_span hspan ⟨Nat.le_refl _, h.lo_le.trans h.sound.place_le_past, Nat.le_refl _, h.boundary,
    h.sound.boundary_past⟩ hparts hchildren, hsolid⟩

theorem container_ok (hr : Readers source r) (betweenTags : Bool) (h : At source s.place floor s) :
    Ok (container r betweenTags) s (Held source s.place) := by
  have hend {t} (h : At source s.place s.place t) {n : Span → Node} (hspan : ∀ span, (n span).span = span)
      (hparts : (n ⟨s.place, t.past⟩).PartsPlaced source)
      (hchildren : AllPlaced source (n ⟨s.place, t.past⟩).children) :
      Ok (containerEnd s.place >>= fun span => pure (n span)) t (Held source s.place) := by
    refine .bind (containerEnd_ok h) fun span u ⟨hu, hspan', hsolid⟩ => .pure ?_
    subst hu hspan'
    exact h.held hsolid (hspan _) hparts hchildren
  refine .look rfl (.bind (expectMark_past h "\x7b") fun _ t₁ ⟨h₁, hpast⟩ => ?_)
  extract_lets filled
  have hfilled : Ok (filled ()) t₁ (Held source s.place) := by
    refine .bind (hr.expression true h₁.here) fun inner t₂ ⟨h₂, hinner⟩ => ?_
    have hbrace : s.place < inner.span.lo := hpast.trans_le (h₁.sound.seen_le.trans hinner.span.lo_le)
    refine hend (h₁.passed h₂) (fun _ => rfl) ⟨hbrace, hinner.span.mono h₁.lo_le ?_⟩ hinner.placed.one
    exact h₂.sound.seen_le.trans h₂.sound.place_le_past
  refine .ite (fun _ => .look rfl (.ite (fun _ => ?_) fun _ => ?_)) fun _ => hfilled
  · exact hend h₁ (fun _ => rfl) trivial allPlaced_nil
  · refine ifMark_ok h₁ (fun t₂ h₂ _ => ?_) hfilled
    refine .bind (hr.expression true h₂.state) fun inner t₃ ⟨h₃, hinner⟩ => ?_
    exact hend h₃ (fun _ => rfl) trivial hinner.placed.one

/-! ## Attributes -/

/-- a quoted text ends in its closing quote -/
theorem solidStart_quoted {quote : Char} {rest : List Char} (hquote : quote = '\x22' ∨ quote = '\x27')
    (hclosed : (rest.takeWhile (· ≠ quote)).length ≠ rest.length) :
    SolidStart (quote :: rest) ((rest.takeWhile (· ≠ quote)).length + 2) := by
  have hblank : isBlank quote = false := by rcases hquote with rfl | rfl <;> decide
  have hsplit := List.takeWhile_append_dropWhile (p := (· ≠ quote)) (l := rest)
  cases hdrop : rest.dropWhile (· ≠ quote) with
  | nil =>
    rw [hdrop, List.append_nil] at hsplit
    exact absurd (congrArg List.length hsplit) hclosed
  | cons c post =>
    have hc := List.head?_dropWhile_not (· ≠ quote) rest
    rw [hdrop] at hc
    obtain rfl : c = quote := by simpa using hc
    refine ⟨c :: rest.takeWhile (· ≠ c), c, post, ?_, hblank, by simp⟩
    rw [hdrop] at hsplit
    simpa using hsplit.symm

/-- the value of an attribute, after an equals sign; it ends in a quote, a brace or a bracket -/
theorem attributeValue_ok (hr : Readers source r) (h : At source lo floor s) : Ok (attributeValue r) s fun n t =>
    Read source lo n t ∧ Solid source t.seen := by
  refine .look rfl ?_
  extract_lets tail finish
  have hrest : tail.RestOf ⟨source, 0⟩ := (passBlanks_rest s.tail).trans h.sound.tail_rest
  have hplace : s.place ≤ tail.offset :=
    (h.sound.place_le_past.trans_eq h.sound.past_eq).trans (passBlanks_rest s.tail).offset_le
  split
  · rename_i quote rest hchars
    refine .ite (fun hquote => .ite (fun _ => .throw_bind) fun hclosed => ?_) fun _ => ?_
    · have hdrop := Tail.RestOf.drop tail ((rest.takeWhile (· ≠ quote)).length + 2)
      have hsolid := hrest.solid_drop (hchars ▸ solidStart_quoted hquote hclosed)
      refine .bind (resume_ok h (hdrop.trans hrest) (hplace.trans hdrop.offset_le)) fun _ t₁ ⟨h₁, hseen⟩ => .pure ?_
      refine ⟨⟨h₁, .of_span rfl ⟨h.lo_le.trans hplace, hdrop.offset_le, hseen.ge, hrest.boundary, hsolid.boundary⟩
        trivial allPlaced_nil⟩, hseen ▸ hsolid⟩
    · refine .bind (advance_ok h) fun _ t₁ h₁ => .look rfl ?_
      -- the last mark of the value is the current token, which is passed
      have hfinish {n t} (hn : Held source t₁.place n t) : Ok (finish n) t fun n t =>
          Read source lo n t ∧ Solid source t.seen := by
        exact .bind hn.advance fun _ u ⟨hu, hsolid⟩ => .pure ⟨Read.lower h₁.state hu, hsolid⟩
      refine .ite (fun _ => ?_) fun _ => ?_
      · exact .bind (hr.element h₁.state.here) fun n t₂ hn => hfinish hn
      · exact .bind (container_ok hr false h₁.state.here) fun n t₂ hn => hfinish hn
  · exact .throw

/-- an attribute ends where reading leaves off, and does not end in a blank -/
theorem attribute?_ok (hr : Readers source r) (h : At source s.place floor s) :
    Ok (attribute? r) s fun found t => match found with
      | none => t = s
      | some n => Read source s.place n t ∧ n.span.hi = t.seen ∧ Solid source t.seen := by
  refine .look rfl ?_
  extract_lets place valued
  have hvalued {name t} (h : At source s.place s.place t) (hsolid : Solid source t.seen) :
      Ok (valued name) t fun found t => match found with
        | none => t = s
        | some n => Read source s.place n t ∧ n.span.hi = t.seen ∧ Solid source t.seen := by
    refine .look rfl (.ite (fun _ => ?_) fun _ => .look rfl (.pure ⟨h.node rfl trivial allPlaced_nil, rfl, hsolid⟩))
    refine .bind (attributeValue_ok hr h) fun value t₂ ⟨⟨h₂, hvalue⟩, hsolid⟩ => .look rfl (.pure ?_)
    exact ⟨h₂.node rfl hvalue.span hvalue.placed.one, rfl, hsolid⟩
  refine ifMark_ok h (fun t₁ h₁ _ => ?_) (.ite (fun _ => .pure rfl) fun _ => ?_)
  · refine .bind (expectMark_ok h₁.state "...") fun _ t₂ ⟨h₂, _⟩ => ?_
    refine .bind (hr.assignment true false h₂) fun inner t₃ ⟨h₃, hinner⟩ => ?_
    refine .bind (expectMark_ok h₃ "\x7d") fun _ t₄ ⟨h₄, hsolid⟩ => .look rfl (.pure ?_)
    exact ⟨h₄.node rfl trivial hinner.placed.one, rfl, hsolid⟩
  · refine .bind (dashedName_ok h) fun first t₁ ⟨h₁, _, hsolid⟩ => ?_
    refine ifMark_ok h₁ (fun t₂ h₂ _ => ?_) (.look rfl (hvalued h₁ hsolid))
    exact .bind (dashedName_ok h₂.state) fun second t₃ ⟨h₃, _, hsolid⟩ => .look rfl (hvalued h₃ hsolid)

theorem Row.mono {as : List Node} (h : Row source lo as hi) {lo' hi' : Nat} (hlo : lo' ≤ lo) (hhi : hi ≤ hi') :
    Row source lo' as hi' := by
  induction as generalizing lo lo' with
  | nil => exact (hlo.trans h).trans hhi
  | cons a as ih => exact ⟨h.1.mono hlo hhi, h.2.1, ih h.2.2 (Nat.le_refl _)⟩

/-- the attributes of a tag follow one another from where reading stood to where it leaves off -/
theorem attributes_ok (hr : Readers source r) (h : At source lo floor s) : Ok (many (attribute? r)) s fun as t =>
    At source lo s.seen t ∧ AllPlaced source as ∧ Row source s.seen as t.seen := by
  refine many_ok (J := fun s => At source lo s.seen s)
    (I := fun s as t => At source lo s.seen t ∧ AllPlaced source as ∧ Row source s.seen as t.seen) (fun s h => ?_) h.now
  refine (attribute?_ok hr h.here).mono fun found t ht => ?_
  cases found with
  | none =>
    obtain rfl : t = s := ht
    exact ⟨h, allPlaced_nil, Nat.le_refl _⟩
  | some a =>
    obtain ⟨⟨ht, hfits⟩, hend, hsolid⟩ := ht
    refine ⟨(h.onward ht).now, fun as u ⟨hu, has, hrow⟩ => ?_⟩
    have hseen : s.seen ≤ u.seen := h.sound.seen_le.trans (ht.floor_le.trans hu.floor_le)
    exact ⟨⟨hu.sound, hu.boundary, hu.lo_le, hseen⟩, allPlaced_cons.2 ⟨hfits.placed, has⟩,
      hfits.span.mono h.sound.seen_le hu.floor_le, hend ▸ hsolid, hend ▸ hrow⟩

/-! ## Children -/

theorem tagEnd_ok (h : At source lo floor s) : Ok tagEnd s fun stop t =>
    At source lo floor t ∧ stop = t.past ∧ Solid source t.past := by
  refine .bind (splitMark_moves '>' h) fun _ t₁ ⟨h₁, _⟩ => .look rfl ?_
  exact .ite (fun hmark => .pure ⟨h₁, rfl, solid_of_isMark h₁ hmark⟩) fun _ => .failHere_bind

/-- byte from which on the next child is read, or at which the children have ended -/
def childrenEnd (state : List Node × Bool) (t : Reading) : Nat := if state.2 then t.place else t.past

theorem childrenEnd_le (h : At source lo floor t) (state : List Node × Bool) : childrenEnd state t ≤ t.past := by
  unfold childrenEnd
  split_ifs
  · exact h.sound.place_le_past
  · exact Nat.le_refl _

/-- children gathered so far, last first: they follow one another up to where the next one is read -/
def Gathered (source : List Char) (start : Nat) (state : List Node × Bool) (t : Reading) : Prop :=
  AllPlaced source state.1 ∧ Series source start state.1.reverse (childrenEnd state t)

theorem child?_ok (hr : Readers source r) (h : At source lo lo s) {start : Nat} {state : List Node × Bool}
    (hstate : Gathered source start state s) : Ok (child? r state) s fun found t => match found with
      | none => t = s ∧ state.2 = true
      | some next => At source lo s.past t ∧ Gathered source start next t := by
  refine .ite (fun hdone => .pure ⟨rfl, hdone⟩) fun hgoing => .look rfl ?_
  extract_lets tail text after before
  have htail : tail.RestOf ⟨source, 0⟩ := h.sound.tail_rest
  have hafter : after.RestOf tail := .drop _ _
  have hpast : s.past ≤ after.offset := h.sound.past_eq.trans_le hafter.offset_le
  have hbefore : AllPlaced source before ∧ Series source start before.reverse after.offset := by
    have hseries : Series source start state.1.reverse s.past := by simpa [childrenEnd, hgoing] using hstate.2
    show AllPlaced source (if _ then _ else _) ∧ Series source start (List.reverse (if _ then _ else _)) after.offset
    split
    · exact ⟨hstate.1, hseries.raise hpast⟩
    · have hspan : SpanFits source tail.offset after.offset ⟨tail.offset, after.offset⟩ :=
        ⟨Nat.le_refl _, hafter.offset_le, Nat.le_refl _, htail.boundary, (hafter.trans htail).boundary⟩
      refine ⟨allPlaced_cons.2 ⟨(Fits.of_span (n := .text _) rfl hspan trivial allPlaced_nil).placed, hstate.1⟩, ?_⟩
      rw [List.reverse_cons]
      exact hseries.concat (hspan.mono h.sound.past_eq.le (Nat.le_refl _))
  refine .ite (fun _ => .throw_bind) fun _ => ?_
  refine .bind (resume_ok h (hafter.trans htail) (h.sound.place_le_past.trans hpast)) fun _ t₁ ⟨h₁, hseen⟩ => ?_
  have hfloor : At source lo after.offset t₁ := ⟨h₁.sound, h₁.boundary, h₁.lo_le, hseen.ge⟩
  refine .bind (splitMark_moves '<' hfloor) fun _ t₂ ⟨h₂, _⟩ => ?_
  have hseries := hbefore.2.raise h₂.floor_le_place
  have hheld {n t} (hn : Held source t₂.place n t) :
      At source lo s.past t ∧ Gathered source start (n :: before, false) t := by
    refine ⟨(h₂.onward hn.1).lower (Nat.le_refl _) h.boundary hpast, allPlaced_cons.2 ⟨hn.2.1.placed, hbefore.1⟩, ?_⟩
    rw [List.reverse_cons]
    exact hseries.concat hn.2.1.span
  have hclosed : At source lo s.past t₂ := h₂.lower (Nat.le_refl _) h.boundary hpast
  refine .look rfl (.ite (fun _ => ?_) fun _ =>
    .look rfl (.ite (fun _ => .pure ⟨hclosed, hbefore.1, hseries⟩) fun _ => ?_))
  · exact .bind (container_ok hr true h₂.here) fun n t₃ hn => .pure (hheld hn)
  · exact .bind (hr.element h₂.here) fun n t₃ hn => .pure (hheld hn)

/-- the children of an element, which follow one another after the current token, and the span of its closing tag, which
comes after them -/
theorem childrenUntil_ok (hr : Readers source r) (h : At source lo lo s) (name : Option TagName) :
    Ok (childrenUntil r name) s fun found t => At source lo lo t ∧ AllPlaced source found.1 ∧
      Series source s.past found.1 found.2.lo ∧ Boundary source found.2.lo ∧ found.2.lo ≤ t.past ∧ found.2.hi = t.past ∧
      Solid source t.past := by
  let I (state : List Node × Bool) (t : Reading) : Prop := At source lo lo t ∧ Gathered source s.past state t
  let K (state : List Node × Bool) (t : Reading) : Prop :=
    At source lo lo t ∧ AllPlaced source state.1 ∧ Series source s.past state.1.reverse t.place
  have hstart : I ([], false) s := ⟨h, allPlaced_nil, Nat.le_refl _⟩
  refine .bind (extend_ok (I := I) (K := K) (fun state t ⟨ht, hstate⟩ => ?_) hstart)
    fun state t₁ ⟨h₁, hchildren, hseries⟩ => .look rfl ?_
  · refine (child?_ok hr ht hstate).mono fun found u hu => ?_
    cases found with
    | none =>
      obtain ⟨rfl, hstop⟩ := hu
      exact ⟨ht, hstate.1, by simpa [childrenEnd, hstop] using hstate.2⟩
    | some next =>
      have hseen : s.past ≤ u.seen := (hstate.2.le.trans (childrenEnd_le ht state)).trans hu.1.floor_le
      exact ⟨⟨hu.1.sound, hu.1.boundary, hu.1.lo_le, (h.lo_le.trans h.sound.place_le_past).trans hseen⟩, hu.2⟩
  refine .bind (expectMark_ok h₁.here "<") fun _ t₂ ⟨h₂, _⟩ => ?_
  refine .bind (expectMark_ok h₂ "/") fun _ t₃ ⟨h₃, _⟩ => ?_
  refine .bind (splitMark_moves '>' h₃) fun _ t₄ ⟨h₄, _⟩ => .look rfl ?_
  have htag : Moves source tagName fun _ => True := Passes.moves fun _ _ _ h =>
    (tagName_ok h).mono fun _ _ ht => ⟨ht.1, trivial⟩
  refine .bind (given_moves _ htag h₄) fun found t₅ ⟨h₅, _⟩ => ?_
  refine .bind (tagEnd_ok h₅) fun stop t₆ ⟨h₆, hstop, hsolid⟩ => .ite (fun _ => .failHere_bind) fun _ => .pure ?_
  exact ⟨h₁.passed h₆, fun n hn => hchildren n (List.mem_reverse.1 hn), hseries, h₁.sound.boundary_place,
    h₆.lo_le.trans h₆.sound.place_le_past, hstop, hsolid⟩

/-! ## Elements -/

/-- where the attributes of a tag go: after its type arguments if there are any, else after its name -/
theorem typeSpan_ok {types : List Node} {name : Span} (typesLo : Nat) (hname : Solid source name.hi)
    (hle : name.hi ≤ s.seen) (htypes : types.isEmpty = false → Solid source s.seen) :
    Ok (given (!types.isEmpty) (since typesLo)) s fun typeSpan t =>
      t = s ∧ Solid source (typeSpan.getD name).hi ∧ (typeSpan.getD name).hi ≤ s.seen := by
  refine .ite (fun h => .look rfl (.pure ⟨rfl, ?_, Nat.le_refl _⟩)) fun _ => .pure ⟨rfl, hname, hle⟩
  exact htypes (by simpa using h)

/-- the tags of an element are placed: what follows the name and the type arguments in the opening tag is the row of
attributes, and children and closing tag come after it -/
theorem element_held (hr : Readers source r) : ReadsHeld source (element r) := by
  intro lo floor s h
  refine .bind (splitMark_moves '<' h) fun _ t₁ ⟨h₁, _⟩ => .look rfl ?_
  suffices hhere : Ok _ t₁ (Held source t₁.place) from hhere.mono fun n t ht =>
    ⟨h₁.passed ht.1, ht.2.1.mono h₁.lo_le (Nat.le_refl _), ht.2.2⟩
  refine .bind (expectMark_ok h₁.here "<") fun _ t₂ ⟨h₂, _⟩ => ?_
  refine .bind (splitMark_moves '>' h₂) fun _ t₃ ⟨h₃, _⟩ => .look rfl ?_
  refine .ite (fun _ => ?_) fun _ => ?_
  · refine .bind (childrenUntil_ok hr h₃ none) fun found t₄ ⟨h₄, hchildren, hseries, _, hclosing, hstop, hsolid⟩ =>
      .pure ?_
    have hlo : t₁.place ≤ t₃.past := h₃.lo_le.trans h₃.sound.place_le_past
    exact h₄.held hsolid (by rw [← hstop]; rfl) (hstop ▸ (hseries.raise hclosing).lower hlo) hchildren
  refine .bind (tagName_ok h₃) fun name t₄ ⟨h₄, hend, hname⟩ => .look rfl (.look rfl (.look rfl ?_))
  refine .bind (typeArgumentsIf_solid hr _ h₄) fun types t₅ ⟨h₅, htypes, hsolid⟩ => ?_
  refine .bind (typeSpan_ok t₄.place (hend ▸ hname) (hend.trans_le h₅.floor_le) hsolid)
    fun typeSpan u ⟨hu, hplace, hle⟩ => ?_
  subst hu
  refine .bind (attributes_ok hr h₅) fun attributes t₆ ⟨h₆, hattributes, hrow⟩ => ?_
  have hseen : t₁.place ≤ t₆.seen := (h₄.floor_le.trans h₅.floor_le).trans h₆.floor_le
  have h₆ : At source t₁.place t₆.seen t₆ := h₆.now
  -- reading goes on at the end of the last attribute, so the tag closes after it
  have hattributesEnd {t stop} (ht : At source t₁.place t₆.seen t) (hstop : stop = t.past) :
      Row source (typeSpan.getD name.2).hi attributes stop :=
    hrow.mono hle (hstop ▸ ht.floor_le_place.trans ht.sound.place_le_past)
  refine ifMark_ok h₆.here (fun t₇ h₇ _ => ?_) ?_
  · refine .bind (tagEnd_ok (h₆.onward h₇.state)) fun stop t₈ ⟨h₈, hstop, hclosed⟩ => .pure ?_
    have htags : TagsPlaced source ⟨⟨t₁.place, stop⟩, name.2, typeSpan⟩ none attributes :=
      ⟨hplace, hattributesEnd h₈ hstop, hstop ▸ hclosed.boundary, by simp⟩
    have hlo : t₁.place ≤ stop := hstop ▸ h₈.lo_le.trans h₈.sound.place_le_past
    exact ((h₈.lower (Nat.le_refl _) h₈.boundary hseen).held hclosed (hstop ▸ rfl) ⟨htags, hlo, Nat.le_refl _⟩
      (by simp [hattributes, htypes]))
  · refine .bind (tagEnd_ok h₆) fun stop t₇ ⟨h₇, hstop, hopened⟩ => ?_
    refine .bind (childrenUntil_ok hr (h₇.lower (Nat.le_refl _) h₇.boundary hseen) (some name.1))
      fun found t₈ ⟨h₈, hchildren, hseries, hboundary, hclosing, hstop', hclosed⟩ => .pure ?_
    have htags : TagsPlaced source ⟨⟨t₁.place, stop⟩, name.2, typeSpan⟩ (some found.2) attributes := by
      refine ⟨hplace, hattributesEnd h₇ hstop, hstop ▸ hopened.boundary, fun c hc => ?_⟩
      obtain rfl : found.2 = c := Option.some.inj hc
      exact ⟨hstop ▸ hseries.le, hboundary⟩
    have hlo : t₁.place ≤ stop := hstop ▸ h₇.lo_le.trans h₇.sound.place_le_past
    have hafter : Series source stop found.1 found.2.hi := by
      rw [hstop, hstop']
      exact hseries.raise hclosing
    exact h₈.held hclosed (hstop' ▸ rfl) ⟨htags, hlo, hafter⟩ (by simp [hattributes, htypes, hchildren])

theorem elementFailure_ok : Ok elementFailure s fun _ t => t = s := by
  refine .look rfl (.ite (fun _ => .look rfl ?_) fun _ => .ite (fun _ => .pure rfl) fun _ => .pure rfl)
  exact .ite (fun _ => .pure rfl) fun _ => .pure rfl

end TsxWorkbench.Syntax
