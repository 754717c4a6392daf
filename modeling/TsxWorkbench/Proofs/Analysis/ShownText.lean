/-
The texts that the index lists of an element or a fragment. A child shows text of its own if it is raw text that is not
blank, or a container of a fixed text (`Shows`); it shows it from its first to its last character that is not blank, or
as the whole container. What the reader of modules makes of the children of an element is in place and in their order
(`children_series`); of the elements and fragments inside them only that is assumed that they lie where those parts do
(`PartsNested`).

- `FixedText`: a string in parentheses and type assertions, with the types that are asserted of it.
- `Found`: a child with the bytes in which it shows text, if it does. `childTextRange?_found`: these are the bytes that
  are listed.
- `texts_of_indexed`: the listed texts are the first ones that are shown, in order and apart; they lie in the element,
  and outside of the elements and fragments in it.
- `text_around_asserted`: a type that is asserted of a string may hold an element, around which the listed text lies.
-/
import Mathlib.Data.List.Pairwise
import Mathlib.Data.List.ReduceOption
import TsxWorkbench.Proofs.Analysis.Listing
import TsxWorkbench.Proofs.Syntax.Parser
import TsxWorkbench.Proofs.Text.Nesting

namespace TsxWorkbench.Analysis

open Text Syntax Syntax.Node

variable {source : List Char} {m : Module}

/-! ## Fixed texts -/

/-- a string, or a template without parts, in at most so many parentheses and type assertions; with the types that are
asserted of it -/
inductive FixedText : Nat → Node → List Node → Prop
  | string {k : Nat} {span : Span} {value : String} : FixedText k (.strLit span value) []
  | template {k : Nat} {span : Span} {texts : List String} : FixedText k (.template span texts []) []
  | wrapped {k : Nat} {span : Span} {kind : Wrapper} {inner : Node} {asserted types : List Node} :
      FixedText k inner types → FixedText (k + 1) (.wrapped span kind inner asserted) (asserted ++ types)

/-- elements and fragments in a fixed text stand in the types that are asserted of it -/
theorem FixedText.mem_types {k : Nat} {n d : Node} {types : List Node} (h : FixedText k n types) (hd : d ∈ n.preorder)
    (hjsx : isJsx d = true) : ∃ t ∈ types, d ∈ t.preorder := by
  induction h with
  | string =>
    obtain rfl : d = _ := by simpa [preorder_eq] using hd
    cases hjsx
  | template =>
    obtain rfl : d = _ := by simpa [preorder_eq] using hd
    cases hjsx
  | @wrapped _ span kind inner asserted types _ ih =>
    rw [preorder_eq, children, List.flatMap_cons, List.mem_cons, List.mem_append, List.mem_flatMap] at hd
    rcases hd with rfl | hd | ⟨t, ht, hd⟩
    · cases hjsx
    · obtain ⟨t, ht, hd⟩ := ih hd
      exact ⟨t, List.mem_append_right _ ht, hd⟩
    · exact ⟨t, List.mem_append_left _ ht, hd⟩

/-- a string or a template without parts -/
def isText : Node → Bool
  | .strLit .. => true
  | .template _ _ parts => parts.isEmpty
  | _ => false

theorem isText_unwrapAtMost (k : Nat) (n : Node) : isText (unwrapAtMost k n) = true ↔ ∃ types, FixedText k n types := by
  have plain (n : Node) (h : isText n = true) (k : Nat) : FixedText k n [] := by
    unfold isText at h
    split at h
    · exact .string
    · obtain rfl := List.isEmpty_iff.1 h
      exact .template
    · cases h
  induction k generalizing n with
  | zero =>
    rw [show unwrapAtMost 0 n = n from rfl]
    refine ⟨fun h => ⟨[], plain n h 0⟩, ?_⟩
    rintro ⟨types, h⟩
    cases h <;> rfl
  | succ k ih =>
    unfold unwrapAtMost
    split
    · rename_i span kind inner asserted heq
      cases heq
      refine (ih inner).trans ⟨?_, ?_⟩
      · rintro ⟨types, h⟩
        exact ⟨_, h.wrapped⟩
      · rintro ⟨types, h⟩
        cases h with
        | wrapped h => exact ⟨_, h⟩
    · rename_i hother
      refine ⟨fun h => ⟨[], plain _ h _⟩, ?_⟩
      rintro ⟨types, h⟩
      cases h with
      | string => rfl
      | template => rfl
      | wrapped h => exact absurd rfl (hother _ _ _ _ _ rfl)

/-! ## Children that show text -/

/-- a child shows text in a range of bytes: raw text without the blanks around it, or a container of a fixed text -/
inductive Shows (source : List Char) : Node → Span → Prop
  | text {span s : Span} {before after : List Char} (hslice : span.slice source = before ++ (s.slice source ++ after))
      (hbefore : ∀ c ∈ before, isBlank c = true) (hafter : ∀ c ∈ after, isBlank c = true)
      (htight : Tight (s.slice source)) (hlo : s.lo = span.lo + byteLen before)
      (hhi : s.hi + byteLen after = span.hi) : Shows source (.text span) s
  | container {span : Span} {inner : Node} {types : List Node} (h : FixedText walkDepth inner types) :
      Shows source (.container span (some inner)) span

/-- a child with the range of bytes in which it shows text, if it does -/
inductive Found (source : List Char) (c : Node) : Option Span → Prop
  | shown {s : Span} (h : Shows source c s) : Found source c (some s)
  | silent (h : ∀ s, ¬Shows source c s) : Found source c none

/-- a text in place that is not blank is shown from its first to its last character that is not blank -/
theorem exists_shows_text {lo hi : Nat} {span : Span} (hspan : SpanFits source lo hi span)
    (hblank : trimStart (span.slice source) ≠ []) : ∃ s, Shows source (.text span) s ∧
      s.lo = span.lo + (byteLen (span.slice source) - byteLen (trimStart (span.slice source))) ∧
      s.hi = span.hi - (byteLen (span.slice source) - byteLen (trimEnd (span.slice source))) := by
  obtain ⟨before, mid, after, hslice, htight, hbefore, hafter, hstart, hend⟩ := exists_tight hblank
  obtain ⟨-, hmid, hhi⟩ := hspan.cut hslice
  refine ⟨_, .text (hslice.trans (by rw [hmid])) hbefore hafter (by rwa [hmid]) rfl hhi, ?_, ?_⟩
  · rw [hstart, hslice]
    simp only [byteLen_append]
    omega
  · rw [hend, hslice]
    simp only [byteLen_append]
    omega

theorem childTextRange?_text (span : Span) (hclamp : span.clamp (byteLen source) = span) :
    childTextRange? source (.text span) = if (trimStart (span.slice source)).isEmpty then none else
      some (rangeOf source ⟨span.lo + (byteLen (span.slice source) - byteLen (trimStart (span.slice source))),
        span.hi - (byteLen (span.slice source) - byteLen (trimEnd (span.slice source)))⟩) := by
  let listed (bytes : Span) : Option TextRange := if (trimStart (bytes.slice source)).isEmpty then none else
    some (rangeOf source ⟨bytes.lo + (byteLen (bytes.slice source) - byteLen (trimStart (bytes.slice source))),
      bytes.hi - (byteLen (bytes.slice source) - byteLen (trimEnd (bytes.slice source)))⟩)
  exact congrArg listed hclamp

theorem childTextRange?_container (span : Span) (inner : Node) (hclamp : span.clamp (byteLen source) = span) :
    childTextRange? source (.container span (some inner)) =
      if isText (unwrap inner) then some (rangeOf source span) else none := by
  let listed (bytes : Span) : Option TextRange := if isText (unwrap inner) then some (rangeOf source bytes) else none
  exact congrArg listed hclamp

/-- what is listed of a child is where it shows text -/
theorem childTextRange?_found {c : Node} (hc : c.Placed source) :
    ∃ found, Found source c found ∧ childTextRange? source c = found.map (rangeOf source) := by
  cases c with
  | text span =>
    have hspan : SpanFits source span.lo span.hi span := hc.fits.span
    rw [childTextRange?_text span hspan.clamp]
    split_ifs with hblank
    · refine ⟨none, .silent fun s h => ?_, rfl⟩
      cases h with
      | text hslice _ _ htight _ _ =>
        obtain ⟨c, rest, hc, hsolid⟩ := htight.first
        have hmem : c ∈ span.slice source := by simp [hslice, hc]
        have hall := List.dropWhile_eq_nil_iff.1 (List.isEmpty_iff.1 hblank) c hmem
        rw [hsolid] at hall
        cases hall
    · obtain ⟨s, hshows, hlo, hhi⟩ := exists_shows_text hspan (by simpa using hblank)
      exact ⟨some s, .shown hshows, by rw [← hlo, ← hhi]; rfl⟩
  | container span inner =>
    have hspan : SpanFits source span.lo span.hi span := hc.fits.span
    cases inner with
    | none => exact ⟨none, .silent (fun _ h => by cases h), rfl⟩
    | some inner =>
      rw [childTextRange?_container span inner hspan.clamp]
      split_ifs with htext
      · obtain ⟨types, htypes⟩ := (isText_unwrapAtMost walkDepth inner).1 htext
        exact ⟨some span, .shown (.container htypes), rfl⟩
      · refine ⟨none, .silent fun s h => ?_, rfl⟩
        cases h with
        | container htypes => exact htext ((isText_unwrapAtMost walkDepth inner).2 ⟨_, htypes⟩)
  | _ => exact ⟨none, .silent (fun _ h => by cases h), rfl⟩

/-- a text that is shown lies in its child and is not empty -/
theorem Shows.fits {c : Node} {s : Span} (h : Shows source c s) (hc : c.Placed source) :
    SpanFits source c.span.lo c.span.hi s ∧ s.lo < s.hi := by
  cases h with
  | @text span s before after hslice _ _ htight hlo hhi =>
    have hspan : SpanFits source span.lo span.hi span := hc.fits.span
    have hmid : 0 < byteLen (s.slice source) := Nat.pos_of_ne_zero fun hzero => htight.ne_nil (byteLen_eq_zero hzero)
    obtain ⟨hfits, -, hend⟩ := hspan.cut hslice
    have hstop : s.hi = span.lo + byteLen before + byteLen (s.slice source) := by omega
    rw [← hstop, ← hlo] at hfits
    exact ⟨hfits, by omega⟩
  | @container span inner types htypes =>
    obtain ⟨hbrace, hinner⟩ := hc.parts
    exact ⟨hc.fits.span, hbrace.trans_le (hinner.le.trans hinner.hi_le)⟩

/-! ## Children in their order -/

/-- children with what is found in each, and what is listed of them -/
theorem exists_found {cs : List Node} (hcs : AllPlaced source cs) : ∃ founds, List.Forall₂ (Found source) cs founds ∧
    cs.filterMap (childTextRange? source) = founds.reduceOption.map (rangeOf source) := by
  induction cs with
  | nil => exact ⟨[], .nil, rfl⟩
  | cons c cs ih =>
    rw [allPlaced_cons] at hcs
    obtain ⟨found, hfound, hlisted⟩ := childTextRange?_found hcs.1
    obtain ⟨founds, hfounds, hrest⟩ := ih hcs.2
    refine ⟨found :: founds, .cons hfound hfounds, ?_⟩
    cases found with
    | none => rw [List.filterMap_cons_none hlisted, hrest, List.reduceOption_cons_of_none]
    | some s => rw [List.filterMap_cons_some hlisted, hrest, List.reduceOption_cons_of_some, List.map_cons]

theorem exists_shows_of_found {cs : List Node} {founds : List (Option Span)}
    (h : List.Forall₂ (Found source) cs founds) {s : Span} (hs : s ∈ founds.reduceOption) :
    ∃ c ∈ cs, Shows source c s := by
  rw [List.reduceOption_mem_iff] at hs
  induction h with
  | nil => exact absurd hs List.not_mem_nil
  | @cons c found cs founds hfound _ ih =>
    rcases List.mem_cons.1 hs with rfl | hs
    · cases hfound with
      | shown hshows => exact ⟨c, List.mem_cons_self, hshows⟩
    · obtain ⟨d, hd, hshows⟩ := ih hs
      exact ⟨d, List.mem_cons_of_mem c hd, hshows⟩

/-- children that follow one another show their texts in this order -/
theorem shown_ordered {lo hi : Nat} {cs : List Node} {founds : List (Option Span)} (hseries : Series source lo cs hi)
    (hcs : AllPlaced source cs) (h : List.Forall₂ (Found source) cs founds) :
    (∀ s ∈ founds.reduceOption, lo ≤ s.lo) ∧ founds.reduceOption.Pairwise fun s t => s.hi ≤ t.lo := by
  induction h generalizing lo with
  | nil => exact ⟨by simp, .nil⟩
  | @cons c found cs founds hfound _ ih =>
    rw [allPlaced_cons] at hcs
    obtain ⟨hlater, hpairs⟩ := ih hseries.2 hcs.2
    cases hfound with
    | silent =>
      rw [List.reduceOption_cons_of_none]
      exact ⟨fun s hs => (hseries.1.lo_le.trans hseries.1.le).trans (hlater s hs), hpairs⟩
    | shown hshows =>
      have hfits := (hshows.fits hcs.1).1
      rw [List.reduceOption_cons_of_some]
      refine ⟨List.forall_mem_cons.2 ⟨hseries.1.lo_le.trans hfits.lo_le, fun s hs => ?_⟩,
        List.pairwise_cons.2 ⟨fun s hs => hfits.hi_le.trans (hlater s hs), hpairs⟩⟩
      exact (hseries.1.lo_le.trans hseries.1.le).trans (hlater s hs)

/-- children that follow one another lie apart -/
theorem series_pairwise {lo hi : Nat} {cs : List Node} (h : Series source lo cs hi) :
    (∀ c ∈ cs, lo ≤ c.span.lo ∧ c.span.hi ≤ hi) ∧ cs.Pairwise fun c d => c.span.hi ≤ d.span.lo := by
  induction cs generalizing lo with
  | nil => exact ⟨by simp, .nil⟩
  | cons c cs ih =>
    obtain ⟨hlater, hpairs⟩ := ih h.2
    refine ⟨List.forall_mem_cons.2 ⟨⟨h.1.lo_le, h.1.hi_le⟩, fun d hd => ?_⟩,
      List.pairwise_cons.2 ⟨fun d hd => (hlater d hd).1, hpairs⟩⟩
    exact ⟨(h.1.lo_le.trans h.1.le).trans (hlater d hd).1, (hlater d hd).2⟩

/-! ## The texts of an element -/

/-- parts of an element in its opening tag -/
def openingParts : Node → List Node
  | .element _ _ _ _ attributes types _ => attributes ++ types
  | _ => []

theorem children_eq {n : Node} (hn : isJsx n = true) : n.children = openingParts n ++ jsxChildren n := by
  cases n with
  | element => exact (List.append_assoc _ _ _).symm
  | fragment => rfl
  | _ => cases hn

theorem allPlaced_jsxChildren {n : Node} (h : n.Placed source) (hn : isJsx n = true) :
    AllPlaced source (jsxChildren n) := by
  have hall := h.children
  rw [children_eq hn, allPlaced_append] at hall
  exact hall.2

/-- the children of an element or a fragment that was read follow one another in it -/
theorem children_series {n : Node} (h : n.Placed source) (hn : isJsx n = true) :
    Series source n.span.lo (jsxChildren n) n.span.hi := by
  cases n with
  | element span tag opening closing attributes types children =>
    obtain ⟨-, hstart, hseries⟩ := h.parts
    exact hseries.lower hstart
  | fragment span children => exact h.parts
  | _ => cases hn

/-- what a reader of modules promises of the elements and fragments in the parts of a node: those in a child lie where
the child does, and those in the opening tag come before the children -/
structure PartsNested (n : Node) : Prop where
  child : ∀ c ∈ jsxChildren n, ∀ d ∈ c.preorder, isJsx d = true → c.span.lo ≤ d.span.lo ∧ d.span.hi ≤ c.span.hi
  opening : ∀ p ∈ openingParts n, ∀ d ∈ p.preorder, isJsx d = true → ∀ c ∈ jsxChildren n, d.span.hi ≤ c.span.lo

instance (n : Node) : Decidable (PartsNested n) :=
  decidable_of_iff ((∀ c ∈ jsxChildren n, ∀ d ∈ c.preorder, isJsx d = true →
      c.span.lo ≤ d.span.lo ∧ d.span.hi ≤ c.span.hi) ∧
    ∀ p ∈ openingParts n, ∀ d ∈ p.preorder, isJsx d = true → ∀ c ∈ jsxChildren n, d.span.hi ≤ c.span.lo)
    ⟨fun h => ⟨h.1, h.2⟩, fun h => ⟨h.1, h.2⟩⟩

/-- an element or fragment in a type that is asserted of the text of a container -/
def AssertedIn (c d : Node) : Prop :=
  ∃ span inner types t, c = .container span (some inner) ∧ FixedText walkDepth inner types ∧ t ∈ types ∧ d ∈ t.preorder

/-- the only elements and fragments in a child that shows text stand in the types that are asserted of the text -/
theorem Shows.assertedIn {c d : Node} {s : Span} (h : Shows source c s) (hd : d ∈ c.preorder) (hjsx : isJsx d = true) :
    AssertedIn c d := by
  cases h with
  | text =>
    obtain rfl : d = _ := by simpa [preorder_eq] using hd
    cases hjsx
  | @container span inner types htypes =>
    rw [preorder_eq, List.mem_cons] at hd
    rcases hd with rfl | hd
    · cases hjsx
    · obtain ⟨t, ht, hd⟩ := htypes.mem_types (by simpa using hd) hjsx
      exact ⟨_, inner, types, t, rfl, htypes, ht, hd⟩

/-- ranges of bytes in place that lie one before the other have no position in common -/
theorem disjoint_of_le {lo hi lo' hi' : Nat} {s t : Span} (hs : SpanFits source lo hi s)
    (ht : SpanFits source lo' hi' t) (h : s.hi ≤ t.lo) : (rangeOf source s).Disjoint (rangeOf source t) :=
  TextRange.disjoint_of_stop_le (position_atOrBefore hs.boundary_hi ht.boundary_lo h)

/-- what holds of an element or fragment that stands in another one, and of a text that a child of that one shows -/
theorem disjoint_or_asserted {n c d : Node} {s : Span} (hn : n.Placed source) (hjsx : isJsx n = true)
    (hparts : PartsNested n) (hc : c ∈ jsxChildren n) (hshows : Shows source c s)
    (hd : d ∈ n.children.flatMap preorder) (hdjsx : isJsx d = true) :
    (rangeOf source s).Disjoint (rangeOf source d.span) ∨ AssertedIn c d := by
  have hfits := (hshows.fits (allPlaced_jsxChildren hn hjsx c hc)).1
  have hdfits : SpanFits source d.span.lo d.span.hi d.span := by
    obtain ⟨p, hp, hd⟩ := List.mem_flatMap.1 hd
    exact ((hn.children p hp).of_mem_preorder hd).fits.span
  rw [children_eq hjsx, List.flatMap_append, List.mem_append, List.mem_flatMap, List.mem_flatMap] at hd
  rcases hd with ⟨p, hp, hd⟩ | ⟨c', hc', hd⟩
  · have hle := hparts.opening p hp d hd hdjsx c hc
    exact .inl (disjoint_of_le hdfits hfits (hle.trans hfits.lo_le)).symm
  by_cases hdc : d ∈ c.preorder
  · exact .inr (hshows.assertedIn hdc hdjsx)
  · -- the children around the two are not the same, so they lie apart
    obtain ⟨hlo, hhi⟩ := hparts.child c' hc' d hd hdjsx
    have hne : c ≠ c' := fun heq => hdc (heq ▸ hd)
    let Apart (a b : Node) : Prop := a.span.hi ≤ b.span.lo ∨ b.span.hi ≤ a.span.lo
    have hapart : (jsxChildren n).Pairwise Apart := (series_pairwise (children_series hn hjsx)).2.imp .inl
    have : Std.Symm Apart := ⟨fun _ _ => Or.symm⟩
    rcases hapart.forall hc hc' hne with hle | hle
    · exact .inl (disjoint_of_le hfits hdfits ((hfits.hi_le.trans hle).trans hlo))
    · exact .inl (disjoint_of_le hdfits hfits ((hhi.trans hle).trans hfits.lo_le)).symm

/-- the texts of an entry are the first that the children of its element show. They are in order and apart, none is
empty, and they lie in the element; those elements and fragments in it that are no part of a type that is asserted of a
text lie outside of the text -/
structure TextsShown (source : List Char) (cap : Nat) (n : Node) (e : InspectElement) : Prop where
  first : ∃ founds, List.Forall₂ (Found source) (jsxChildren n) founds ∧
    e.texts = (founds.reduceOption.take cap).map (rangeOf source)
  length_le : e.texts.length ≤ cap
  ordered : e.texts.Pairwise fun r s => r.stop.atOrBefore s.start = true ∧ r.Disjoint s
  nonempty : ∀ r ∈ e.texts, r.start.before r.stop = true
  within : ∀ r ∈ e.texts, r.within e.range = true
  outside : ∀ r ∈ e.texts, ∃ c ∈ jsxChildren n, ∃ s, Shows source c s ∧ r = rangeOf source s ∧
    ∀ d ∈ n.children.flatMap preorder, isJsx d = true → r.Disjoint (rangeOf source d.span) ∨ AssertedIn c d

/-- the ranges of bytes that are listed of an element or fragment: they follow one another, and each is one in which a
child shows text -/
structure ShownSpans (source : List Char) (n : Node) (spans : List Span) : Prop where
  ordered : spans.Pairwise fun s t => s.hi ≤ t.lo
  shown : ∀ s ∈ spans, ∃ c ∈ jsxChildren n, Shows source c s ∧ SpanFits source n.span.lo n.span.hi s ∧ s.lo < s.hi

theorem shownSpans {n : Node} (hplaced : n.Placed source) (hjsx : isJsx n = true) {founds : List (Option Span)}
    (hfounds : List.Forall₂ (Found source) (jsxChildren n) founds) : ShownSpans source n founds.reduceOption := by
  have hseries := children_series hplaced hjsx
  have hchildren := allPlaced_jsxChildren hplaced hjsx
  refine ⟨(shown_ordered hseries hchildren hfounds).2, ?_⟩
  intro s hs
  obtain ⟨c, hc, hshows⟩ := exists_shows_of_found hfounds hs
  obtain ⟨hfits, hlt⟩ := hshows.fits (hchildren c hc)
  obtain ⟨hlo, hhi⟩ := (series_pairwise hseries).1 c hc
  exact ⟨c, hc, hshows, hfits.mono hlo hhi, hlt⟩

theorem ShownSpans.take {n : Node} {spans : List Span} (h : ShownSpans source n spans) (cap : Nat) :
    ShownSpans source n (spans.take cap) :=
  ⟨h.ordered.sublist (List.take_sublist cap spans), fun s hs => h.shown s (List.mem_of_mem_take hs)⟩

theorem textsShown_ofNode {n : Node} (hm : parseModule source = .ok m) (hn : n ∈ jsxOf m) (hparts : PartsNested n)
    (cap : Nat) : TextsShown source cap n (.ofNode source cap n) := by
  have hplaced := parseModule_placed hm (mem_preorder_of_mem_jsxOf hn)
  have hjsx : isJsx n = true := (List.mem_filter.1 hn).2
  obtain ⟨founds, hfounds, hlisted⟩ := exists_found (allPlaced_jsxChildren hplaced hjsx)
  have hspans := (shownSpans hplaced hjsx hfounds).take cap
  have htexts : (InspectElement.ofNode source cap n).texts = (founds.reduceOption.take cap).map (rangeOf source) := by
    rw [InspectElement.ofNode, hlisted, List.map_take]
  exact {
    first := ⟨founds, hfounds, htexts⟩
    length_le := List.length_take_le _ _
    ordered := by
      rw [htexts, List.pairwise_map]
      refine hspans.ordered.imp_of_mem ?_
      intro s t hs ht hle
      obtain ⟨_, _, _, hs, _⟩ := hspans.shown s hs
      obtain ⟨_, _, _, ht, _⟩ := hspans.shown t ht
      exact ⟨position_atOrBefore hs.boundary_hi ht.boundary_lo hle, disjoint_of_le hs ht hle⟩
    nonempty := by
      rw [htexts, List.forall_mem_map]
      intro s hs
      obtain ⟨_, _, _, hs, hlt⟩ := hspans.shown s hs
      exact position_before hs.boundary_lo hs.boundary_hi hlt
    within := by
      rw [htexts, List.forall_mem_map, range_ofNode hm hn]
      intro s hs
      obtain ⟨_, _, _, hs, _⟩ := hspans.shown s hs
      have hwhole := hplaced.fits.span
      exact TextRange.within_iff.2 ⟨position_atOrBefore hwhole.boundary_lo hs.boundary_lo hs.lo_le,
        position_atOrBefore hs.boundary_hi hwhole.boundary_hi hs.hi_le⟩
    outside := by
      rw [htexts, List.forall_mem_map]
      intro s hs
      obtain ⟨c, hc, hshows, _⟩ := hspans.shown s hs
      refine ⟨c, hc, s, hshows, rfl, ?_⟩
      intro d hd hdjsx
      exact disjoint_or_asserted hplaced hjsx hparts hc hshows hd hdjsx }

/-- **Shown texts.** Every entry of the index lists the first texts that the children of its element or fragment
show. -/
theorem texts_of_indexed {cap : Nat} {e : InspectElement} (hm : parseModule source = .ok m)
    (hparts : ∀ n ∈ jsxOf m, PartsNested n) (he : e ∈ InspectIndex.ofModule source cap m) :
    ∃ n ∈ jsxOf m, e = .ofNode source cap n ∧ TextsShown source cap n e := by
  obtain ⟨n, hn, rfl⟩ := List.mem_map.1 he
  have hn := mem_jsxOf_of_mem_jsxWithin hn
  exact ⟨n, hn, rfl, textsShown_ofNode hm hn (hparts n hn) cap⟩

/-- a paragraph with three texts, and elements in its tag and between the texts -/
def paragraph : List Char := "<p id=\x7b<i/>\x7d>\n  one \x7b\"two\"\x7d\x7b<b/>\x7dthree\n</p>;".toList

/-- the first two of its texts are listed where there is room for two -/
theorem texts_of_indexed_paragraph : ∃ m, parseModule paragraph = .ok m ∧
    ∃ e ∈ InspectIndex.ofModule paragraph 2 m, e.texts = [⟨2, 3, 2, 6⟩, ⟨2, 7, 2, 14⟩] ∧
      ∃ n ∈ jsxOf m, e = .ofNode paragraph 2 n ∧ TextsShown paragraph 2 n e := by
  have hany : (parseModule paragraph).toOption.any (fun m => decide ((∀ n ∈ jsxOf m, PartsNested n) ∧
      ∃ e ∈ InspectIndex.ofModule paragraph 2 m, e.texts = [⟨2, 3, 2, 6⟩, ⟨2, 7, 2, 14⟩])) = true := by
    decide +kernel
  obtain ⟨m, hm, htexts⟩ := exists_of_toOption_any hany
  obtain ⟨hparts, e, he, htexts⟩ := of_decide_eq_true htexts
  exact ⟨m, hm, e, he, htexts, texts_of_indexed hm hparts he⟩

/-! ## Types that are asserted of a text -/

/-- a paragraph whose text has a type asserted of it, with an element in a computed key of the type -/
def assertedText : List Char := "const a = <p>\x7b\"x\" as \x7b [<b/>]: string \x7d\x7d</p>;".toList

/-- **The price of listing whole containers.** The text that is listed of the paragraph lies around the element in the
type, so a place in the element has a text of the paragraph around it. -/
theorem text_around_asserted : ∃ m, parseModule assertedText = .ok m ∧ (∀ n ∈ jsxOf m, PartsNested n) ∧
    ∃ n ∈ jsxOf m, InspectElement.ofNode assertedText 120 n ∈ InspectIndex.ofModule assertedText 120 m ∧
      ∃ d ∈ n.children.flatMap preorder, isJsx d = true ∧ (rangeOf assertedText d.span).contains ⟨1, 26⟩ = true ∧
        ∃ r ∈ (InspectElement.ofNode assertedText 120 n).texts, r.contains ⟨1, 26⟩ = true := by
  have hany : (parseModule assertedText).toOption.any (fun m => decide ((∀ n ∈ jsxOf m, PartsNested n) ∧
      ∃ n ∈ jsxOf m, InspectElement.ofNode assertedText 120 n ∈ InspectIndex.ofModule assertedText 120 m ∧
        ∃ d ∈ n.children.flatMap preorder, isJsx d = true ∧ (rangeOf assertedText d.span).contains ⟨1, 26⟩ = true ∧
          ∃ r ∈ (InspectElement.ofNode assertedText 120 n).texts, r.contains ⟨1, 26⟩ = true)) = true := by
    decide +kernel
  obtain ⟨m, hm, hfound⟩ := exists_of_toOption_any hany
  exact ⟨m, hm, of_decide_eq_true hfound⟩

end TsxWorkbench.Analysis
