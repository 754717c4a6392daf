/-
What an edit of attributes keeps of an element. Each splice of a style update or of a move adds an attribute, writes in
the value of a class or style attribute, or takes a style attribute out (`EditsAttribute`).

- `classSplice?_edits`, `planStyle_edits`: there are no other splices. A text that is added or written is set off from
  what stands around it (`Delimited`), so two names can run into one another only where a style attribute is taken out.
- `keepsElement_of_touches`: such splices leave the name of the tag with its type arguments, the texts of all other
  attributes in their order, and all that follows the last attribute, which is the end of the tag, the children and the
  closing tag.
- `attribute_edits_keep_element`: a style update or a move that changes the source does so by such splices.

All of this is about texts. A text that stays may still be read in another way, as one that a comment has come to cover.
-/
import TsxWorkbench.Proofs.Edit.ReadBack
import TsxWorkbench.Proofs.Edit.Survival
import TsxWorkbench.Proofs.Text.Simultaneous

namespace TsxWorkbench.Edit

open Text Syntax Syntax.Node Analysis Number

variable {source indentUnit : List Char} {point : Position} {e : Element} {lo hi : Nat} {s : Span}
  {splices : List Splice}

/-! ## Other attributes -/

/-- names of the attributes that an edit writes -/
def isEdited (name : String) : Bool := isClassAttribute name || name == "style"

namespace Element

/-- attributes that no edit writes: those of other names and those that are spread -/
def otherAttributes (e : Element) : List Node :=
  e.attributes.filter fun n => match n with
    | .attr _ name _ => !isEdited name
    | _ => true

/-- end of the last attribute, or of the name and the type arguments if there is none -/
def attributesEnd (e : Element) : Nat := lastEnd e.attributePlace e.attributes

end Element

/-- a source with the element as it was but for its class and style attributes -/
def KeepsElement (source : List Char) (e : Element) (edited : List Char) : Prop :=
  ∃ attributes, edited = takeBytes e.attributePlace source ++ attributes ++ dropBytes e.attributesEnd source ∧
    InOrder (e.otherAttributes.map fun n => n.span.slice source) attributes

theorem mem_otherAttributes {n : Node} (h : n ∈ e.otherAttributes) :
    n ∈ e.attributes ∧ ∀ span name value, n = .attr span name value → isEdited name = false := by
  obtain ⟨hmem, hother⟩ := List.mem_filter.1 h
  refine ⟨hmem, ?_⟩
  rintro span name value rfl
  exact (Bool.not_eq_true' _).mp hother

/-- what an edit touches does not reach into another attribute -/
theorem Touches.apart_other (hplace : Solid source e.attributePlace)
    (hrow : Row source e.attributePlace e.attributes hi) (h : Touches source e isEdited s) {n : Node}
    (hn : n ∈ e.otherAttributes) : s.hi ≤ n.span.lo ∨ n.span.hi ≤ s.lo := by
  obtain ⟨hmem, hother⟩ := mem_otherAttributes hn
  have hspan := ((row_apart hplace hrow).1 n hmem).1
  rcases h with rfl | ⟨span, name, value, hattr, hname, hs⟩
  · exact .inl hspan.lo_le
  have hne : Node.attr span name value ≠ n := by
    intro heq
    rw [hother span name value heq.symm] at hname
    cases hname
  rcases attributes_apart hplace hrow hattr hmem hne with h | h
  · exact .inl ((hs.hi_le.trans h).trans (attributeWithBlanks_lo hspan.boundary_lo).2)
  · exact .inr (h.trans hs.lo_le)

/-- nodes of a row that no splice reaches into are still there, in their order -/
theorem inOrder_rewritten {as : List Node} {kept : Node → Bool} (hrow : Row source lo as hi)
    (hlo : Boundary source lo) (hhi : Boundary source hi)
    (hapart : ∀ n ∈ as.filter kept, ∀ s ∈ splices, s.span.hi ≤ n.span.lo ∨ n.span.hi ≤ s.span.lo) :
    InOrder ((as.filter kept).map fun n => n.span.slice source)
      (rewritten splices lo (sliceBytes lo hi source)) := by
  induction as generalizing lo with
  | nil => exact .nil _
  | cons n rest ih =>
    obtain ⟨hspan, -, hrest⟩ := hrow
    have hrestApart : ∀ m ∈ rest.filter kept, ∀ s ∈ splices, s.span.hi ≤ m.span.lo ∨ m.span.hi ≤ s.span.lo := by
      intro m hm
      exact hapart m (((List.sublist_cons_self n rest).filter kept).subset hm)
    have hafter := ih hrest hspan.boundary_hi hrestApart
    rw [rewritten_split splices hlo hspan.boundary_lo hhi hspan.lo_le (hspan.le.trans hspan.hi_le),
      rewritten_split splices hspan.boundary_lo hspan.boundary_hi hhi hspan.le hspan.hi_le]
    cases hkept : kept n with
    | false =>
      rw [List.filter_cons_of_neg (by simp [hkept])]
      exact (hafter.append_left _).append_left _
    | true =>
      rw [List.filter_cons_of_pos hkept] at hapart ⊢
      obtain ⟨before, hbefore⟩ : n.span.slice source <:+ rewritten splices n.span.lo (n.span.slice source) := by
        apply suffix_rewritten
        intro s hs
        rw [Span.slice, add_byteLen_sliceBytes hspan.boundary_lo hspan.boundary_hi hspan.le]
        exact hapart n List.mem_cons_self s hs
      have hcut := InOrder.cons (rewritten splices lo (sliceBytes lo n.span.lo source) ++ before)
        (n.span.slice source) hafter
      rw [List.append_assoc _ before, hbefore, List.append_assoc] at hcut
      exact hcut

/-- splices that touch class and style attributes only keep the element -/
theorem keepsElement_of_touches (hlocate : locate source point = .ok e)
    (htouches : ∀ s ∈ splices, Touches source e isEdited s.span) (hapart : splices.Pairwise Splice.Apart) :
    KeepsElement source e (applySplices source splices) := by
  have htags := (tagsPlaced_of_locate hlocate).1
  have hplace : Solid source e.attributePlace := htags.place
  have hrow : Row source e.attributePlace e.attributes e.attributesEnd := htags.attributes.untilLast
  have hend : Boundary source e.attributesEnd := (htags.attributes.solid_lastEnd hplace).boundary
  have hfits (s : Splice) (hs : s ∈ splices) : SpanFits source e.attributePlace e.attributesEnd s.span :=
    (htouches s hs).fits_row hplace hrow
  have hpass : applySplices source splices = simultaneous splices source :=
    applySplices_eq_simultaneous (.refl _) (fun s hs => (hfits s hs).mono (Nat.zero_le _) hend.le_byteLen) hapart
  have horder := inOrder_rewritten hrow hplace.boundary hend fun n hn s hs =>
    (htouches s hs).apart_other hplace hrow hn
  -- the text between the two places is what one pass makes of it
  obtain ⟨pre, mid, post, hcut, hpre, hmid⟩ := hplace.boundary.split hend hrow.le
  refine ⟨rewritten splices e.attributePlace (sliceBytes e.attributePlace e.attributesEnd source) ++
    insertedAt splices e.attributesEnd, ?_, horder.append_right _⟩
  have hwindow : ∀ s ∈ splices, byteLen pre ≤ s.span.lo ∧ s.span.hi ≤ byteLen (pre ++ mid) := by
    intro s hs
    rw [hpre, hmid]
    exact ⟨(hfits s hs).lo_le, (hfits s hs).hi_le⟩
  rw [hpass, hcut, ← hpre, ← hmid, simultaneous_window hwindow, takeBytes_append, sliceBytes_append,
    ← List.append_assoc pre mid post, dropBytes_append]

/-! ## Splices of an edit -/

/-- a text that starts with a blank, a quote or a brace and ends with a quote or a brace, so that no name or number around
it runs into it -/
def Delimited (text : List Char) : Prop :=
  ∃ first middle last, text = first :: (middle ++ [last]) ∧ first ∈ [' ', '\x22', '\x27', '\x7b'] ∧
    last ∈ ['\x22', '\x27', '\x7d']

/-- what the splices of an edit do: a new attribute after the name and the type arguments, a text in the value of a class
or style attribute, or nothing in the place of the style attribute with the blanks before it -/
inductive EditsAttribute (source : List Char) (e : Element) : Splice → Prop where
  | added {text : List Char} (htext : Delimited (' ' :: text)) :
    EditsAttribute source e (.insertAt e.attributePlace (' ' :: text))
  | written {s : Span} {text : List Char} (hvalue : InValue source e isEdited s) (htext : Delimited text) :
    EditsAttribute source e ⟨s, text⟩
  | removed {whole literal : Span} {old : List Node} (hstyle : StyleAttribute.of e = .object whole literal old) :
    EditsAttribute source e ⟨attributeWithBlanks source whole, []⟩

theorem delimited_classLiteral (v : List Char) (quote : Option Char) : Delimited (classLiteral v quote) := by
  cases quote with
  | none => exact ⟨'\x22', _, '\x22', rfl, by simp, by simp⟩
  | some q =>
    dsimp only [classLiteral]
    split
    · rename_i hq
      rcases hq.1 with rfl | rfl
      · exact ⟨'\x22', v, '\x22', rfl, by simp, by simp⟩
      · exact ⟨'\x27', v, '\x27', rfl, by simp, by simp⟩
    · exact ⟨'\x7b', Json.quote v, '\x7d', rfl, by simp, by simp⟩

theorem delimited_renderObject (source : List Char) (literal : Span) (old : List Node) (entries : List (List Char))
    (indentUnit : List Char) : Delimited (renderObject source literal old entries indentUnit) := by
  unfold renderObject
  split
  · exact ⟨'\x7b', ' ' :: List.intercalate ", ".toList entries ++ [' '], '\x7d', by simp, by simp, by simp⟩
  · extract_lets closeIndent ownLine entryIndent
    exact ⟨'\x7b', '\n' :: joinLines (entries.map fun entry => entryIndent ++ entry ++ [',']) ++ '\n' :: closeIndent,
      '\x7d', by simp, by simp, by simp⟩

/-- a name after a blank, with a delimited value -/
theorem Delimited.after {text : List Char} (h : Delimited text) (before : List Char) :
    Delimited (' ' :: (before ++ text)) := by
  obtain ⟨first, middle, last, rfl, -, hlast⟩ := h
  exact ⟨' ', before ++ first :: middle, last, by simp, by simp, hlast⟩

theorem isEdited_of_isClassAttribute {name : String} (h : isClassAttribute name = true) : isEdited name = true := by
  rw [isEdited, h, Bool.true_or]

theorem isEdited_style {name : String} (h : (name == "style") = true) : isEdited name = true := by
  rw [isEdited, h, Bool.or_true]

theorem InValue.imp {test test' : String → Bool} (himp : ∀ {name}, test name = true → test' name = true)
    (h : InValue source e test s) : InValue source e test' s := by
  obtain ⟨span, name, value, hmem, htest, hs⟩ := h
  exact ⟨span, name, value, hmem, himp htest, hs⟩

theorem Touches.imp {test test' : String → Bool} (himp : ∀ {name}, test name = true → test' name = true)
    (h : Touches source e test s) : Touches source e test' s := by
  rcases h with h | ⟨span, name, value, hmem, htest, hs⟩
  · exact .inl h
  · exact .inr ⟨span, name, value, hmem, himp htest, hs⟩

/-- the splice of a class list adds a class attribute, or writes in the value of one -/
theorem classSplice?_edits (hattributes : AllPlaced source e.attributes)
    {updates : List (StyleField × Option (List Char))} {splice : Splice}
    (h : classSplice? (ClassTarget.of source e) updates = some splice) : EditsAttribute source e splice := by
  cases htarget : ClassTarget.of source e with
  | missing place =>
    rw [htarget] at h
    obtain rfl := place_of_missing htarget
    dsimp only [classSplice?] at h
    split at h
    · cases h
    · cases h
      exact .added ((delimited_classLiteral _ _).after "className=".toList)
  | static value span quote =>
    rw [htarget] at h
    dsimp only [classSplice?] at h
    split at h
    · cases h
    · cases h
      exact .written ((inValue_of_static hattributes htarget).imp isEdited_of_isClassAttribute)
        (delimited_classLiteral _ _)
  | dynamic =>
    rw [htarget] at h
    cases h

/-- the splice of a style adds a style attribute, writes in the value of one, or takes it out -/
theorem planStyle_edits (hattributes : AllPlaced source e.attributes) {p : StylePatch} {splice : Splice}
    (h : planStyle source e p indentUnit = .ok (some splice)) : EditsAttribute source e splice := by
  cases planStyle_writes h with
  | inserted hmissing hentries =>
    have hobject (entries : List Char) : Delimited ("\x7b\x7b ".toList ++ entries ++ " \x7d\x7d".toList) :=
      ⟨'\x7b', "\x7b ".toList ++ entries ++ " \x7d".toList, '\x7d', by simp, by simp, by simp⟩
    exact .added ((hobject _).after "style=".toList)
  | emptied hstyle hentries => exact .removed hstyle
  | rewritten hstyle hentries =>
    obtain ⟨found, value, hfound, hvalue, -, hcontained⟩ := exists_of_styleAttribute hstyle
    have hliteral : InValue source e (· == "style") _ :=
      inValue_of_value hattributes hfound hvalue fun h => (fits_contained hcontained h).span
    exact .written (hliteral.imp isEdited_style) (delimited_renderObject _ _ _ _ _)

/-- such a splice touches class and style attributes only -/
theorem EditsAttribute.touches (hattributes : AllPlaced source e.attributes) {splice : Splice}
    (h : EditsAttribute source e splice) : Touches source e isEdited splice.span := by
  cases h with
  | added htext => exact .inl rfl
  | written hvalue htext => exact hvalue.touches hattributes
  | removed hstyle =>
    obtain ⟨found, value, hfound, -, rfl, -⟩ := exists_of_styleAttribute hstyle
    exact (touches_whole hattributes hfound).imp isEdited_style

/-! ## Edits -/

/-- a source that is edited in attributes of an element, by splices that lie apart -/
structure AttributeEdits (source : List Char) (e : Element) (splices : List Splice) (edited : List Char) : Prop where
  edited_eq : edited = applySplices source splices
  edits : ∀ s ∈ splices, EditsAttribute source e s
  apart : splices.Pairwise Splice.Apart

theorem AttributeEdits.keepsElement {edited : List Char} (hlocate : locate source point = .ok e)
    (h : AttributeEdits source e splices edited) : KeepsElement source e edited := by
  have hattributes := (tagsPlaced_of_locate hlocate).2
  rw [h.edited_eq]
  exact keepsElement_of_touches hlocate (fun s hs => (h.edits s hs).touches hattributes) h.apart

theorem updateStyle_edits {update : StyleUpdate}
    (hchanged : (updateStyle indentUnit source point update).changed = true) : ∃ e splices,
      locate source point = .ok e ∧
        AttributeEdits source e splices (updateStyle indentUnit source point update).source := by
  rcases updateStyle_framed indentUnit source point update with hrefused | ⟨-, -, -, e, hlocate, -⟩
  · rw [hrefused.1] at hchanged
    cases hchanged
  obtain ⟨htags, hattributes⟩ := tagsPlaced_of_locate hlocate
  obtain ⟨style, hstyle, hsource⟩ := exists_splices_of_updateStyle hlocate hchanged
  refine ⟨e, _, hlocate, hsource, fun s hs => ?_, ?_⟩
  · rcases List.mem_append.1 hs with hs | hs
    · exact classSplice?_edits hattributes (Option.mem_toList.1 hs)
    · exact planStyle_edits hattributes (hstyle s (Option.mem_toList.1 hs))
  · refine List.pairwise_append.2 ⟨pairwise_toList _, pairwise_toList _, fun a ha b hb => ?_⟩
    have hclass := classSplice?_touches (classTarget_inPlace hattributes) (Option.mem_toList.1 ha)
    have hstyle := planStyle_touches hattributes (hstyle b (Option.mem_toList.1 hb))
    exact hclass.apart htags hstyle style_ne_of_isClassAttribute

theorem moveElement_edits {dx dy : Binary64} (hchanged : (moveElement indentUnit source point dx dy).changed = true) :
    ∃ e splices, locate source point = .ok e ∧
      AttributeEdits source e splices (moveElement indentUnit source point dx dy).source := by
  obtain ⟨reason, hrefused⟩ | ⟨e, x, y, splice, hlocate, -, hstyle, happlied⟩ :=
    moveElement_cases indentUnit source point dx dy
  · rw [hrefused] at hchanged
    cases hchanged
  have hedits := planStyle_edits (tagsPlaced_of_locate hlocate).2 hstyle
  rw [happlied]
  exact ⟨e, [splice], hlocate, rfl, by simpa using hedits, List.pairwise_singleton _ _⟩

/-- **Kept elements.** A style update and a move that change the source do so by splices that lie apart, each of which
adds an attribute, writes in the value of a class or style attribute, or takes a style attribute out. The name of the
tag with its type arguments, all other attributes in their order, and all that follows the last attribute stand in the
new source as they stood in the old one. -/
theorem attribute_edits_keep_element (indentUnit source : List Char) (point : Position) {r : EditResult}
    (hedit : (∃ update, r = updateStyle indentUnit source point update) ∨
      ∃ dx dy, r = moveElement indentUnit source point dx dy) (hchanged : r.changed = true) :
    ∃ e splices, locate source point = .ok e ∧ AttributeEdits source e splices r.source ∧
      KeepsElement source e r.source := by
  have hsplices : ∃ e splices, locate source point = .ok e ∧ AttributeEdits source e splices r.source := by
    rcases hedit with ⟨update, rfl⟩ | ⟨dx, dy, rfl⟩
    · exact updateStyle_edits hchanged
    · exact moveElement_edits hchanged
  obtain ⟨e, splices, hlocate, hedits⟩ := hsplices
  exact ⟨e, splices, hlocate, hedits, hedits.keepsElement hlocate⟩

/-- a component with a style of one entry between two other attributes, one of which is spread -/
def styledCard : List Char :=
  "const a = <Card id=\"x\" style=\x7b\x7b color: \"red\" \x7d\x7d \x7b...rest\x7d>x</Card>;".toList

/-- the component is the element, with the two other attributes -/
def isCard (e : Element) : Bool :=
  takeBytes e.attributePlace styledCard == "const a = <Card".toList &&
    dropBytes e.attributesEnd styledCard == ">x</Card>;".toList &&
    e.otherAttributes.map (fun n => n.span.slice styledCard) == ["id=\"x\"".toList, "\x7b...rest\x7d".toList]

/-- a colour that goes into the classes, so that the style goes, and a move, which writes in the style -/
theorem attribute_edits_keep_element_styledCard :
    (updateStyle [] styledCard ⟨1, 12⟩ green).changed = true ∧
      (moveElement [] styledCard ⟨1, 12⟩ (.ofNat 2) (.ofNat 3)).changed = true ∧
      ∀ edited ∈ [(updateStyle [] styledCard ⟨1, 12⟩ green).source,
          (moveElement [] styledCard ⟨1, 12⟩ (.ofNat 2) (.ofNat 3)).source],
        ∃ attributes, edited = "const a = <Card".toList ++ attributes ++ ">x</Card>;".toList ∧
          InOrder ["id=\"x\"".toList, "\x7b...rest\x7d".toList] attributes := by
  have hany : (locate styledCard ⟨1, 12⟩).toOption.any isCard = true := by decide +kernel
  have hupdated : (updateStyle [] styledCard ⟨1, 12⟩ green).changed = true := by decide +kernel
  have hmoved : (moveElement [] styledCard ⟨1, 12⟩ (.ofNat 2) (.ofNat 3)).changed = true := by decide +kernel
  have hkept {r : EditResult} (h : ∃ e splices, locate styledCard ⟨1, 12⟩ = .ok e ∧
      AttributeEdits styledCard e splices r.source ∧ KeepsElement styledCard e r.source) :
      ∃ attributes, r.source = "const a = <Card".toList ++ attributes ++ ">x</Card>;".toList ∧
        InOrder ["id=\"x\"".toList, "\x7b...rest\x7d".toList] attributes := by
    obtain ⟨e, splices, hlocate, -, attributes, hedited, horder⟩ := h
    rw [hlocate] at hany
    simp only [isCard, Except.toOption, Option.any_some, Bool.and_eq_true, beq_iff_eq] at hany
    obtain ⟨⟨hbefore, hafter⟩, hothers⟩ := hany
    rw [hbefore, hafter] at hedited
    rw [hothers] at horder
    exact ⟨attributes, hedited, horder⟩
  refine ⟨hupdated, hmoved, List.forall_mem_cons.2 ⟨?_, List.forall_mem_cons.2 ⟨?_, nofun⟩⟩⟩
  · exact hkept (attribute_edits_keep_element [] styledCard ⟨1, 12⟩ (.inl ⟨green, rfl⟩) hupdated)
  · exact hkept (attribute_edits_keep_element [] styledCard ⟨1, 12⟩ (.inr ⟨.ofNat 2, .ofNat 3, rfl⟩) hmoved)

end TsxWorkbench.Edit
