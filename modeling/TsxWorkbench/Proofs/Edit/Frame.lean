/-
What an edit of attributes leaves as it was. The attributes of a tag follow one another and none of them ends in a
blank, so a removed attribute takes no character of another one with the blanks before it, and the two splices of a
style update lie apart.

- `classSplice?_touches`, `planStyle_touches`: a splice is an insertion after the name of the tag, or lies in an
  attribute with the blanks before it.
- `attribute_edits_framed`: a style update or a move is refused, with the source as it was, or changes nothing outside
  of the opening tag of the element around the place, and nothing up to the end of its name and type arguments.

Within the tag the text need not stay readable: `emptied_style_breaks_source` loses the end of a comment.
-/
import Mathlib.Data.List.Pairwise
import TsxWorkbench.Proofs.Edit.Element
import TsxWorkbench.Proofs.Text.Splice
import TsxWorkbench.Edit.Move
import TsxWorkbench.Edit.Style

namespace TsxWorkbench.Edit

open Text Syntax Syntax.Node Analysis Number

variable {source : List Char} {point : Position} {e : Element} {lo hi : Nat} {s : Span}

/-! ## Attributes -/

/-- an attribute with the blanks before it starts at a boundary, before the attribute -/
theorem attributeWithBlanks_lo (h : Boundary source s.lo) :
    Boundary source (attributeWithBlanks source s).lo ∧ (attributeWithBlanks source s).lo ≤ s.lo := by
  obtain ⟨blanks, hblanks, -⟩ := exists_trimEnd_append (takeBytes s.lo source)
  have hsource := h.take_append_drop
  have hlen := h.byteLen_take
  rw [hblanks] at hsource hlen
  rw [List.append_assoc] at hsource
  rw [byteLen_append] at hlen
  refine ⟨⟨_, _, hsource.symm, rfl⟩, ?_⟩
  show byteLen (trimEnd (takeBytes s.lo source)) ≤ s.lo
  omega

/-- the blanks before a range that starts after a solid end start after it as well -/
theorem attributeWithBlanks_fits (hlo : Solid source lo) (h : SpanFits source lo hi s) :
    SpanFits source lo hi (attributeWithBlanks source s) := by
  obtain ⟨hstart, hle⟩ := attributeWithBlanks_lo h.boundary_lo
  exact ⟨hlo.le_trimEnd h.boundary_lo h.lo_le, hle.trans h.le, h.hi_le, hstart, h.boundary_hi⟩

/-- attributes lie inside their tag, with the blanks before them, and no attribute reaches into these blanks -/
theorem row_apart {as : List Node} (hlo : Solid source lo) (h : Row source lo as hi) :
    (∀ a ∈ as, SpanFits source lo hi a.span ∧ SpanFits source lo hi (attributeWithBlanks source a.span)) ∧
      as.Pairwise fun a b => a.span.hi ≤ (attributeWithBlanks source b.span).lo := by
  induction as generalizing lo with
  | nil => exact ⟨by simp, .nil⟩
  | cons a as ih =>
    obtain ⟨hspan, hsolid, hrest⟩ := h
    obtain ⟨hfits, hapart⟩ := ih hsolid hrest
    have hle : lo ≤ a.span.hi := hspan.lo_le.trans hspan.le
    refine ⟨List.forall_mem_cons.2 ⟨⟨hspan, attributeWithBlanks_fits hlo hspan⟩, fun b hb => ?_⟩, ?_⟩
    · exact ⟨(hfits b hb).1.mono hle (Nat.le_refl _), (hfits b hb).2.mono hle (Nat.le_refl _)⟩
    · exact List.pairwise_cons.2 ⟨fun b hb => (hfits b hb).2.lo_le, hapart⟩

/-- of two attributes one ends before the blanks before the other one -/
theorem attributes_apart {as : List Node} (hlo : Solid source lo) (h : Row source lo as hi) {n m : Node} (hn : n ∈ as)
    (hm : m ∈ as) (hne : n ≠ m) :
    n.span.hi ≤ (attributeWithBlanks source m.span).lo ∨ m.span.hi ≤ (attributeWithBlanks source n.span).lo := by
  let R (n m : Node) : Prop := n.span.hi ≤ (attributeWithBlanks source m.span).lo ∨
    m.span.hi ≤ (attributeWithBlanks source n.span).lo
  have hrow : as.Pairwise R := (row_apart hlo h).2.imp Or.inl
  have : Std.Symm R := ⟨fun _ _ h => h.symm⟩
  exact hrow.forall hn hm hne

/-- a range that an edit of an attribute may change: the place for a new attribute, or a part of the attribute with the
blanks before it -/
def Touches (source : List Char) (e : Element) (test : String → Bool) (s : Span) : Prop :=
  s = ⟨e.attributePlace, e.attributePlace⟩ ∨ ∃ span name value, Node.attr span name value ∈ e.attributes ∧
    test name = true ∧ SpanFits source (attributeWithBlanks source span).lo span.hi s

/-- a range in the value of an attribute -/
def InValue (source : List Char) (e : Element) (test : String → Bool) (s : Span) : Prop :=
  ∃ span name value, Node.attr span name (some value) ∈ e.attributes ∧ test name = true ∧
    SpanFits source value.span.lo value.span.hi s

/-- a part of the value of an attribute is touched with the attribute -/
theorem InValue.touches {test : String → Bool} (hattributes : AllPlaced source e.attributes)
    (h : InValue source e test s) : Touches source e test s := by
  obtain ⟨span, name, value, hmem, htest, hs⟩ := h
  have hplaced := hattributes _ hmem
  have hvalue : SpanFits source span.lo span.hi value.span := hplaced.parts
  have hblanks := (attributeWithBlanks_lo hplaced.fits.span.boundary_lo).2
  exact .inr ⟨span, name, some value, hmem, htest, hs.mono (hblanks.trans hvalue.lo_le) hvalue.hi_le⟩

theorem mem_of_lastAttribute?_eq_some {test : String → Bool} {found : Node} (h : e.lastAttribute? test = some found) :
    ∃ span name value, found = .attr span name value ∧ found ∈ e.attributes ∧ test name = true := by
  have hmem := List.mem_reverse.1 (List.mem_of_find?_eq_some h)
  have htest := List.find?_some h
  split at htest
  · exact ⟨_, _, _, rfl, hmem, htest⟩
  · cases htest

theorem fits_unwrap {n : Node} (h : n.Fits source lo hi) : (unwrap n).Fits source lo hi := by
  have within (k : Nat) : ∀ {n : Node}, n.Fits source lo hi → (unwrapAtMost k n).Fits source lo hi := by
    induction k with
    | zero => exact fun h => h
    | succ k ih =>
      intro n h
      unfold unwrapAtMost
      split
      · rename_i inner _ heq
        cases heq
        have hinner : SpanFits source _ _ inner.span := h.placed.parts
        exact ih ⟨hinner.mono h.span.lo_le h.span.hi_le, h.placed.children _ List.mem_cons_self⟩
      · exact h
  exact within _ h

/-- what lies in any place for the value of the attribute that counts lies in its value -/
theorem inValue_of_value (hattributes : AllPlaced source e.attributes) {test : String → Bool} {found value : Node}
    (hfound : e.lastAttribute? test = some found) (hvalue : valueOf? found = some value)
    (hs : ∀ {lo hi}, value.Fits source lo hi → SpanFits source lo hi s) : InValue source e test s := by
  obtain ⟨span, name, found, rfl, hmem, htest⟩ := mem_of_lastAttribute?_eq_some hfound
  obtain rfl : found = some value := hvalue
  have hplaced : value.Placed source := (hattributes _ hmem).children _ List.mem_cons_self
  exact ⟨span, name, value, hmem, htest, hs hplaced.fits⟩

/-- the attribute that counts is touched when it is taken out -/
theorem touches_whole (hattributes : AllPlaced source e.attributes) {test : String → Bool} {found : Node}
    (hfound : e.lastAttribute? test = some found) : Touches source e test (attributeWithBlanks source found.span) := by
  obtain ⟨span, name, value, rfl, hmem, htest⟩ := mem_of_lastAttribute?_eq_some hfound
  have hspan := (hattributes _ hmem).fits.span
  obtain ⟨hstart, hle⟩ := attributeWithBlanks_lo hspan.boundary_lo
  exact .inr ⟨span, name, value, hmem, htest, Nat.le_refl _, hle.trans hspan.le, Nat.le_refl _, hstart,
    hspan.boundary_hi⟩

/-- an expression in braces lies in its container, without what stands around it -/
theorem fits_contained {n inner : Node} (h : containedExpression? n = some inner) (hn : n.Fits source lo hi) :
    inner.Fits source lo hi := by
  unfold containedExpression? at h
  split at h
  · cases h
    have hinner : SpanFits source _ _ _ := hn.placed.parts.2
    exact fits_unwrap ⟨hinner.mono hn.span.lo_le hn.span.hi_le, hn.placed.children _ List.mem_cons_self⟩
  · cases h

/-- a class target whose place or range belongs to the element -/
def ClassTarget.InPlace (source : List Char) (e : Element) : ClassTarget → Prop
  | .missing place => place = e.attributePlace
  | .static _ span _ => Touches source e isClassAttribute span
  | .dynamic => True

/-- a class text that is known lies in the value of a class attribute -/
theorem inValue_of_static (hattributes : AllPlaced source e.attributes) {value : List Char} {quote : Option Char}
    (h : ClassTarget.of source e = .static value s quote) : InValue source e isClassAttribute s := by
  unfold ClassTarget.of at h
  split at h
  · cases h
  rename_i found hfound
  split at h
  · rename_i hvalue
    cases h
    exact inValue_of_value hattributes hfound hvalue fun h => h.span
  · rename_i span inner hvalue
    split at h
    · cases h
      exact inValue_of_value hattributes hfound hvalue fun h =>
        (fits_contained (n := .container span (some inner)) rfl h).span
    · cases h
  · cases h

theorem place_of_missing {place : Nat} (h : ClassTarget.of source e = .missing place) : place = e.attributePlace := by
  unfold ClassTarget.of at h
  split at h
  · cases h
    rfl
  split at h
  · cases h
  · split at h <;> cases h
  · cases h

theorem classTarget_inPlace (hattributes : AllPlaced source e.attributes) :
    (ClassTarget.of source e).InPlace source e := by
  cases htarget : ClassTarget.of source e with
  | missing place => exact place_of_missing htarget
  | static value span quote => exact (inValue_of_static hattributes htarget).touches hattributes
  | dynamic => trivial

/-- the splice of a class list stays in the class attribute, or adds one -/
theorem classSplice?_touches {target : ClassTarget} (htarget : target.InPlace source e)
    {updates : List (StyleField × Option (List Char))} {splice : Splice}
    (h : classSplice? target updates = some splice) : Touches source e isClassAttribute splice.span := by
  cases target with
  | missing place =>
    obtain rfl : place = e.attributePlace := htarget
    dsimp only [classSplice?] at h
    split at h
    · cases h
    · cases h
      exact .inl rfl
  | static value span quote =>
    dsimp only [classSplice?] at h
    split at h
    · cases h
    · cases h
      exact htarget
  | dynamic => cases h

/-- an object that is written into lies in an attribute -/
theorem exists_of_styleAttribute {whole literal : Span} {entries : List Node}
    (h : StyleAttribute.of e = .object whole literal entries) : ∃ found value,
      e.lastAttribute? (· == "style") = some found ∧ valueOf? found = some value ∧ whole = found.span ∧
      containedExpression? value = some (.object literal entries) := by
  unfold StyleAttribute.of at h
  split at h
  · cases h
  · rename_i found hfound
    split at h
    · rename_i heq
      cases h
      obtain ⟨value, hvalue, hcontained⟩ := Option.bind_eq_some_iff.1 heq
      exact ⟨found, value, hfound, hvalue, rfl, hcontained⟩
    · cases h

/-- the splice of a style stays in the style attribute with the blanks before it, or adds one -/
theorem planStyle_touches (hattributes : AllPlaced source e.attributes) {p : StylePatch} {indentUnit : List Char}
    {splice : Splice} (h : planStyle source e p indentUnit = .ok (some splice)) :
    Touches source e (· == "style") splice.span := by
  unfold planStyle at h
  split at h
  · cases h
  split at h
  · split at h
    · cases h
    · cases h
      exact .inl rfl
  · cases h
  · rename_i whole literal old hstyle
    obtain ⟨found, value, hfound, hvalue, rfl, hcontained⟩ := exists_of_styleAttribute hstyle
    dsimp only at h
    split at h
    · cases h
    split at h
    · cases h
      exact touches_whole hattributes hfound
    · cases h
      exact (inValue_of_value hattributes hfound hvalue fun h => (fits_contained hcontained h).span).touches hattributes

/-! ## Splices of an update -/

/-- what is touched lies with the attributes -/
theorem Touches.fits_row {test : String → Bool} (hplace : Solid source e.attributePlace)
    (hrow : Row source e.attributePlace e.attributes hi) (h : Touches source e test s) :
    SpanFits source e.attributePlace hi s := by
  rcases h with rfl | ⟨span, name, value, hmem, -, hfits⟩
  · exact ⟨Nat.le_refl _, Nat.le_refl _, hrow.le, hplace.boundary, hplace.boundary⟩
  · have hwhole := ((row_apart hplace hrow).1 _ hmem).2
    exact hfits.mono hwhole.lo_le hwhole.hi_le

/-- what is touched lies in the opening tag, after its name and type arguments -/
theorem Touches.fits {test : String → Bool} (htags : TagsPlaced source e.opening e.closing e.attributes)
    (h : Touches source e test s) : SpanFits source e.attributePlace e.opening.whole.hi s :=
  h.fits_row htags.place htags.attributes

/-- attributes of different names are touched apart from one another -/
theorem Touches.apart {test test' : String → Bool} {a b : Splice}
    (htags : TagsPlaced source e.opening e.closing e.attributes) (ha : Touches source e test a.span)
    (hb : Touches source e test' b.span) (hnames : ∀ name, test name = true → test' name = false) :
    Splice.Apart a b := by
  have hafits := ha.fits htags
  have hbfits := hb.fits htags
  rcases ha with ha | ⟨s, name, value, hmem, htest, hs⟩
  · left
    rw [ha]
    exact hbfits.lo_le
  rcases hb with hb | ⟨s', name', value', hmem', htest', hs'⟩
  · right
    rw [hb]
    exact hafits.lo_le
  have hne : Node.attr s name value ≠ Node.attr s' name' value' := by
    rintro ⟨⟩
    rw [hnames name htest] at htest'
    cases htest'
  rcases attributes_apart htags.place htags.attributes hmem hmem' hne with h | h
  · exact .inl ((hs.hi_le.trans h).trans hs'.lo_le)
  · exact .inr ((hs'.hi_le.trans h).trans hs.lo_le)

/-! ## Edits of attributes -/

/-- an edit that was refused: the source is as it was, and there is a reason -/
def Refused (source : List Char) (r : EditResult) : Prop :=
  r.changed = false ∧ r.source = source ∧ r.refusal.isSome = true ∧ r.insertedAt = none

theorem refused_refused {reason : Refusal} {notices : List String} : Refused source (.refused source reason notices) :=
  ⟨rfl, rfl, rfl, rfl⟩

/-- an edit in the opening tag of the element around a place, after the name of the tag and its type arguments -/
def AppliedInTag (source : List Char) (point : Position) (r : EditResult) : Prop :=
  r.changed = true ∧ r.refusal = none ∧ r.insertedAt = none ∧ ∃ e, locate source point = .ok e ∧
    SameOutside source e.attributePlace e.opening.whole.hi r.source

/-- splices that touch different attributes change only the tag -/
theorem appliedInTag_of_touches (h : locate source point = .ok e) {splices : List Splice}
    (hfits : ∀ s ∈ splices, SpanFits source e.attributePlace e.opening.whole.hi s.span)
    (hapart : splices.Pairwise Splice.Apart) (notices : List String) :
    AppliedInTag source point (.applied (applySplices source splices) notices) := by
  have htags := (tagsPlaced_of_locate h).1
  refine ⟨rfl, rfl, rfl, e, h, ?_⟩
  exact applySplices_sameOutside hfits hapart htags.place.boundary htags.stop htags.attributes.le

theorem style_ne_of_isClassAttribute (name : String) (h : isClassAttribute name = true) :
    (name == "style") = false := by
  rw [isClassAttribute, Bool.or_eq_true, beq_iff_eq, beq_iff_eq] at h
  rcases h with rfl | rfl <;> rfl

theorem pairwise_toList {α : Type} {R : α → α → Prop} (o : Option α) : o.toList.Pairwise R := by
  cases o <;> simp

theorem planUpdate_framed (h : locate source point = .ok e) (changes : List (StyleField × Change))
    (indentUnit : List Char) : Refused source (planUpdate source e changes indentUnit) ∨
      AppliedInTag source point (planUpdate source e changes indentUnit) := by
  obtain ⟨htags, hattributes⟩ := tagsPlaced_of_locate h
  unfold planUpdate
  extract_lets target plan classes finish
  have hclass (s : Splice) (hs : s ∈ classes) : Touches source e isClassAttribute s.span :=
    classSplice?_touches (classTarget_inPlace hattributes) (Option.mem_toList.1 hs)
  -- at most one splice for the classes, and at most one for the style
  have hfinish (style : Option Splice) (hstyle : ∀ s ∈ style, Touches source e (· == "style") s.span) notices :
      Refused source (finish (classes ++ style.toList) notices) ∨
        AppliedInTag source point (finish (classes ++ style.toList) notices) := by
    show Refused source (if _ then _ else _) ∨ AppliedInTag source point (if _ then _ else _)
    split
    · exact .inl refused_refused
    refine .inr (appliedInTag_of_touches h (fun s hs => ?_) ?_ notices)
    · rcases List.mem_append.1 hs with hs | hs
      · exact (hclass s hs).fits htags
      · exact (hstyle s (Option.mem_toList.1 hs)).fits htags
    · refine List.pairwise_append.2 ⟨pairwise_toList _, pairwise_toList _, fun a ha b hb => ?_⟩
      exact (hclass a ha).apart htags (hstyle b (Option.mem_toList.1 hb)) style_ne_of_isClassAttribute
  split
  · rename_i style hplan
    refine hfinish style (fun s hs => ?_) _
    obtain rfl : style = some s := hs
    exact planStyle_touches hattributes hplan
  · split
    · simpa using hfinish none (by simp)
        (plan.notices ++ ["style is dynamic; existing inline entries were left in place"])
    · exact .inl refused_refused

theorem updateStyle_framed (indentUnit source : List Char) (point : Position) (update : StyleUpdate) :
    Refused source (updateStyle indentUnit source point update) ∨
      AppliedInTag source point (updateStyle indentUnit source point update) := by
  unfold updateStyle
  split
  · exact .inl refused_refused
  split
  · exact .inl refused_refused
  · exact planUpdate_framed ‹_› _ _

theorem moveElement_framed (indentUnit source : List Char) (point : Position) (dx dy : Binary64) :
    Refused source (moveElement indentUnit source point dx dy) ∨
      AppliedInTag source point (moveElement indentUnit source point dx dy) := by
  obtain ⟨reason, hrefused⟩ | ⟨e, x, y, splice, h, -, hstyle, happlied⟩ :=
    moveElement_cases indentUnit source point dx dy
  · rw [hrefused]
    exact .inl refused_refused
  obtain ⟨htags, hattributes⟩ := tagsPlaced_of_locate h
  have htouches := planStyle_touches hattributes hstyle
  have hfits (s : Splice) (hs : s ∈ [splice]) : SpanFits source e.attributePlace e.opening.whole.hi s.span := by
    rw [List.mem_singleton.1 hs]
    exact htouches.fits htags
  rw [happlied]
  exact .inr (appliedInTag_of_touches h hfits (List.pairwise_singleton _ _) [])

/-- **Edits of attributes stay in the tag.** A style update and a move are refused with a reason and the source as it
was, or change the opening tag of the innermost element around the point and nothing else, and nothing of the tag up to
the end of its name and type arguments. -/
theorem attribute_edits_framed (indentUnit source : List Char) (point : Position) (update : StyleUpdate)
    (dx dy : Binary64) :
    (Refused source (updateStyle indentUnit source point update) ∨
      AppliedInTag source point (updateStyle indentUnit source point update)) ∧
    (Refused source (moveElement indentUnit source point dx dy) ∨
      AppliedInTag source point (moveElement indentUnit source point dx dy)) :=
  ⟨updateStyle_framed indentUnit source point update, moveElement_framed indentUnit source point dx dy⟩

/-- an element with a comment before its only other attribute, a style of one entry -/
def commentBeforeStyle : List Char := "const a = <div // c\n style=\x7b\x7b color: \"red\" \x7d\x7d>x</div>;".toList

/-- **A removed style can break the source.** The blanks before an emptied style go with it, and with them the end of
the line that a comment before the style stands on: the comment then takes the rest of the tag. -/
theorem emptied_style_breaks_source : ¬∀ (indentUnit source : List Char) (point : Position) (update : StyleUpdate),
    (parseModule source).isOk = true → (updateStyle indentUnit source point update).changed = true →
      (parseModule (updateStyle indentUnit source point update).source).isOk = true := by
  intro h
  have hfails :
      (parseModule (updateStyle [] commentBeforeStyle ⟨1, 12⟩ [(.textColor, .clear)]).source).isOk = false := by
    decide +kernel
  have hreads := h [] commentBeforeStyle ⟨1, 12⟩ [(.textColor, .clear)] (by decide +kernel) (by decide +kernel)
  exact absurd (hfails.symm.trans hreads) Bool.false_ne_true

end TsxWorkbench.Edit
