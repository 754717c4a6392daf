/-
What the index of a module lists. `Below` counts the elements and fragments around a node; where none has more than
`maxJsxDepth` around it, the index lists them all, in the order of the tree (`ofModule_eq_map_jsx`).

`JsxNested` is what a reader of modules promises of the ranges of elements and fragments: they nest as the tree does.
Of two whose ranges hold one point, one is then part of the other (`mem_preorder_or_of_contains`), and the inner one is
the smaller (`smallerExtent_of_mem_preorder`).
-/
import Mathlib.Data.List.Nodup
import TsxWorkbench.Analysis.Inspect
import TsxWorkbench.Proofs.Syntax.Parser
import TsxWorkbench.Proofs.Text.Innermost

namespace TsxWorkbench.Analysis

open Text Syntax Syntax.Node

/-! ## Depth -/

/-- a node at or below another one, with so many elements and fragments around it from the upper one on -/
inductive Below : Nat → Node → Node → Prop where
  | self (n : Node) : Below 0 n n
  | part {k : Nat} {a c n : Node} : c ∈ a.children → Below k c n → Below (if isJsx a then k + 1 else k) a n

theorem exists_below {a n : Node} (h : n ∈ a.preorder) : ∃ k, Below k a n := by
  induction a using preorder.induct with
  | case1 a ih =>
    rw [preorder_eq, List.mem_cons] at h
    rcases h with rfl | h
    · exact ⟨0, .self n⟩
    · obtain ⟨c, hc, hn⟩ := List.mem_flatMap.1 h
      obtain ⟨k, hk⟩ := ih ⟨c, hc⟩ hn
      exact ⟨_, .part hc hk⟩

theorem jsxWithin_eq (depth : Nat) (n : Node) : jsxWithin depth n =
    if isJsx n then n :: (match depth with
      | 0 => []
      | k + 1 => n.children.flatMap (jsxWithin k))
    else n.children.flatMap (jsxWithin depth) := by
  have hparts (k : Nat) : (n.children.attach.flatMap fun c => jsxWithin k c.1) = n.children.flatMap (jsxWithin k) := by
    rw [← List.flatMap_map Subtype.val (jsxWithin k), List.attach_map_subtype_val]
  rw [jsxWithin.eq_def]
  split
  · cases depth with
    | zero => rfl
    | succ k => exact congrArg (n :: ·) (hparts k)
  · exact hparts depth

/-- elements and fragments that have no more than so many around them are all listed -/
theorem jsxWithin_eq_filter {depth : Nat} {a : Node} (h : ∀ k n, Below k a n → isJsx n = true → k ≤ depth) :
    jsxWithin depth a = a.preorder.filter isJsx := by
  induction a using preorder.induct generalizing depth with
  | case1 a ih =>
    rw [jsxWithin_eq, preorder_eq, List.filter_cons, List.filter_flatMap]
    by_cases ha : isJsx a = true
    · rw [if_pos ha, if_pos ha]
      congr 1
      cases depth with
      | zero =>
        refine (List.flatMap_eq_nil_iff.2 fun c hc => List.filter_eq_nil_iff.2 fun n hn hjsx => ?_).symm
        obtain ⟨k, hk⟩ := exists_below hn
        have hle := h _ n (.part hc hk) hjsx
        rw [if_pos ha] at hle
        exact absurd hle (Nat.not_succ_le_zero k)
      | succ depth =>
        refine List.flatMap_congr fun c hc => ih ⟨c, hc⟩ fun k n hk hjsx => ?_
        have hle := h _ n (.part hc hk) hjsx
        rw [if_pos ha] at hle
        exact Nat.le_of_succ_le_succ hle
    · rw [if_neg ha, if_neg ha]
      refine List.flatMap_congr fun c hc => ih ⟨c, hc⟩ fun k n hk hjsx => ?_
      have hle := h _ n (.part hc hk) hjsx
      rwa [if_neg ha] at hle

/-- an element or fragment has fewer others around it than there are at and below the upper one -/
theorem Below.lt_length {k : Nat} {a n : Node} (h : Below k a n) (hn : isJsx n = true) :
    k < (a.preorder.filter isJsx).length := by
  induction h with
  | self n => exact List.length_pos_of_mem (List.mem_filter.2 ⟨mem_preorder_self n, hn⟩)
  | @part k a c n hc _ ih =>
    have hsublist : (c.preorder.filter isJsx).Sublist ((a.children.flatMap preorder).filter isJsx) :=
      (List.sublist_flatten_of_mem (List.mem_map_of_mem hc)).filter isJsx
    have hlength := (ih hn).trans_le hsublist.length_le
    rw [preorder_eq, List.filter_cons]
    split_ifs
    · exact Nat.succ_lt_succ hlength
    · exact hlength

/-- elements and fragments of a module, parents first -/
def jsxOf (m : Module) : List Node := m.preorder.filter isJsx

/-- no element or fragment of a module has more than so many around it -/
def JsxDepthLe (depth : Nat) (m : Module) : Prop :=
  ∀ item ∈ m.items, ∀ k n, Below k item n → isJsx n = true → k ≤ depth

theorem ofModule_eq_map_jsx {m : Module} (h : JsxDepthLe maxJsxDepth m) (source : List Char) (limit : Nat) :
    InspectIndex.ofModule source limit m = (jsxOf m).map (InspectElement.ofNode source limit) := by
  rw [InspectIndex.ofModule, jsxOf, Module.preorder, List.filter_flatMap]
  congr 1
  exact List.flatMap_congr fun item hitem => jsxWithin_eq_filter (h item hitem)

/-! ## Nesting -/

/-- elements and fragments whose ranges nest as the tree does: none is empty, no two are the same, a part of another
lies in it, and those of which neither is part of the other lie apart; and no opening tag is empty -/
structure JsxNested (m : Module) : Prop where
  nonempty : ∀ n ∈ jsxOf m, n.span.lo < n.span.hi
  distinct : ((jsxOf m).map Node.span).Nodup
  within : ∀ a ∈ jsxOf m, ∀ b ∈ jsxOf m, b ∈ a.preorder → a.span.lo ≤ b.span.lo ∧ b.span.hi ≤ a.span.hi
  apart : ∀ a ∈ jsxOf m, ∀ b ∈ jsxOf m, b ∉ a.preorder → a ∉ b.preorder →
    a.span.hi ≤ b.span.lo ∨ b.span.hi ≤ a.span.lo
  opening : ∀ span tag opening closing attributes types children,
    element span tag opening closing attributes types children ∈ jsxOf m → opening.whole.lo < opening.whole.hi

section

variable {source : List Char} {m : Module} {point : Position} {a b : Node}

theorem mem_preorder_of_mem_jsxOf (h : a ∈ jsxOf m) : a ∈ m.preorder := (List.mem_filter.1 h).1

/-- an element or fragment of a module that was read lies between two boundaries of the text -/
theorem spanFits_of_mem_jsxOf (hm : parseModule source = .ok m) (ha : a ∈ jsxOf m) :
    SpanFits source a.span.lo a.span.hi a.span :=
  (parseModule_placed hm (mem_preorder_of_mem_jsxOf ha)).fits.span

namespace JsxNested

/-- elements and fragments are told apart by their ranges of bytes -/
theorem eq_of_span (h : JsxNested m) (ha : a ∈ jsxOf m) (hb : b ∈ jsxOf m) (hspan : a.span = b.span) : a = b :=
  List.inj_on_of_nodup_map h.distinct ha hb hspan

/-- and by their ranges of positions -/
theorem eq_of_range (h : JsxNested m) (hm : parseModule source = .ok m) (ha : a ∈ jsxOf m) (hb : b ∈ jsxOf m)
    (hrange : rangeOf source a.span = rangeOf source b.span) : a = b := by
  have fa := spanFits_of_mem_jsxOf hm ha
  have fb := spanFits_of_mem_jsxOf hm hb
  simp only [rangeOf, TextRange.mk.injEq] at hrange
  obtain ⟨hlo, hlo', hhi, hhi'⟩ := hrange
  exact h.eq_of_span ha hb (congrArg₂ Span.mk
    (eq_of_position fa.boundary_lo fb.boundary_lo (congrArg₂ Position.mk hlo hlo'))
    (eq_of_position fa.boundary_hi fb.boundary_hi (congrArg₂ Position.mk hhi hhi')))

/-- of two elements or fragments only one can be part of the other -/
theorem antisymm (h : JsxNested m) (ha : a ∈ jsxOf m) (hb : b ∈ jsxOf m) (hab : a ∈ b.preorder)
    (hba : b ∈ a.preorder) : a = b := by
  obtain ⟨hlo, hhi⟩ := h.within a ha b hb hba
  obtain ⟨hlo', hhi'⟩ := h.within b hb a ha hab
  exact h.eq_of_span ha hb (congrArg₂ Span.mk (Nat.le_antisymm hlo hlo') (Nat.le_antisymm hhi' hhi))

/-- of two elements or fragments around one point one is part of the other -/
theorem mem_preorder_or_of_contains (h : JsxNested m) (hm : parseModule source = .ok m) (ha : a ∈ jsxOf m)
    (hb : b ∈ jsxOf m) (hpa : (rangeOf source a.span).contains point = true)
    (hpb : (rangeOf source b.span).contains point = true) : b ∈ a.preorder ∨ a ∈ b.preorder := by
  have fa := spanFits_of_mem_jsxOf hm ha
  have fb := spanFits_of_mem_jsxOf hm hb
  by_contra hnone
  rw [not_or] at hnone
  rcases h.apart a ha b hb hnone.1 hnone.2 with hle | hle
  · exact not_apart_of_contains hpa hpb (position_atOrBefore fa.boundary_hi fb.boundary_lo hle)
  · exact not_apart_of_contains hpb hpa (position_atOrBefore fb.boundary_hi fa.boundary_lo hle)

/-- the range of a part lies in the range of what it is part of -/
theorem range_within (h : JsxNested m) (hm : parseModule source = .ok m) (ha : a ∈ jsxOf m) (hb : b ∈ jsxOf m)
    (hab : b ∈ a.preorder) : (rangeOf source a.span).start.atOrBefore (rangeOf source b.span).start = true ∧
      (rangeOf source b.span).stop.atOrBefore (rangeOf source a.span).stop = true := by
  have fa := spanFits_of_mem_jsxOf hm ha
  have fb := spanFits_of_mem_jsxOf hm hb
  obtain ⟨hlo, hhi⟩ := h.within a ha b hb hab
  exact ⟨position_atOrBefore fa.boundary_lo fb.boundary_lo hlo, position_atOrBefore fb.boundary_hi fa.boundary_hi hhi⟩

/-- what stands around a part stands around a point in it -/
theorem contains_of_mem_preorder (h : JsxNested m) (hm : parseModule source = .ok m) (ha : a ∈ jsxOf m)
    (hb : b ∈ jsxOf m) (hab : b ∈ a.preorder) (hpb : (rangeOf source b.span).contains point = true) :
    (rangeOf source a.span).contains point = true := by
  obtain ⟨hstart, hstop⟩ := h.range_within hm ha hb hab
  exact contains_of_within hstart hstop hpb

/-- a part is smaller than what it is part of -/
theorem smallerExtent_of_mem_preorder (h : JsxNested m) (hm : parseModule source = .ok m) (ha : a ∈ jsxOf m)
    (hb : b ∈ jsxOf m) (hab : b ∈ a.preorder) (hne : b ≠ a) :
    smallerExtent (rangeOf source b.span).extent (rangeOf source a.span).extent = true := by
  have fb := spanFits_of_mem_jsxOf hm hb
  obtain ⟨hstart, hstop⟩ := h.range_within hm ha hb hab
  exact smallerExtent_of_within (position_atOrBefore fb.boundary_lo fb.boundary_hi fb.le) hstart hstop
    fun hrange => hne (h.eq_of_range hm hb ha hrange)

/-- of listed elements and fragments the deepest one around a point is picked: all others around it have it as a part -/
theorem deepest_of_innermost {α : Type} (h : JsxNested m) (hm : parseModule source = .ok m)
    {items : List (TextRange × α)} (stands : Node → α → Prop)
    (hitems : ∀ i ∈ items, ∃ n ∈ jsxOf m, stands n i.2 ∧ i.1 = rangeOf source n.span) {x : α}
    (hx : innermost items point = some x) :
    ∃ a ∈ jsxOf m, stands a x ∧ (rangeOf source a.span).contains point = true ∧
      ∀ b ∈ jsxOf m, (∃ y, (rangeOf source b.span, y) ∈ items) → (rangeOf source b.span).contains point = true →
        a ∈ b.preorder := by
  obtain ⟨r, hr, hcontains, hleast⟩ := least_of_innermost hx
  obtain ⟨a, ha, hstands, rfl⟩ := hitems _ hr
  refine ⟨a, ha, hstands, hcontains, fun b hb ⟨y, hy⟩ hpb => ?_⟩
  rcases h.mem_preorder_or_of_contains hm ha hb hcontains hpb with hab | hab
  -- a listed part of the pick would be smaller than the pick
  · by_contra hnot
    have hne : b ≠ a := fun heq => hnot (heq ▸ mem_preorder_self b)
    have hsmaller := h.smallerExtent_of_mem_preorder hm ha hb hab hne
    exact absurd hsmaller (by simp [hleast _ hy hpb])
  · exact hab

end JsxNested

theorem range_ofNode {n : Node} (hm : parseModule source = .ok m) (hn : n ∈ jsxOf m) (limit : Nat) :
    (InspectElement.ofNode source limit n).range = rangeOf source n.span := by
  rw [InspectElement.ofNode, (spanFits_of_mem_jsxOf hm hn).clamp]

/-- the index has no match where no element or fragment stands around the point -/
theorem find?_eq_none_iff (hm : parseModule source = .ok m) (hdepth : JsxDepthLe maxJsxDepth m) {limit : Nat} :
    (InspectIndex.ofModule source limit m).find? point = none ↔
      ∀ n ∈ jsxOf m, (rangeOf source n.span).contains point = false := by
  rw [InspectIndex.find?, ofModule_eq_map_jsx hdepth, List.map_map, innermost_eq_none_iff, List.forall_mem_map]
  exact forall₂_congr fun n hn => by simp only [Function.comp_apply, range_ofNode hm hn]

/-- the match of the index is the deepest element or fragment around the point -/
theorem deepest_of_find? (h : JsxNested m) (hm : parseModule source = .ok m) (hdepth : JsxDepthLe maxJsxDepth m)
    {limit : Nat} {e : InspectElement} (he : (InspectIndex.ofModule source limit m).find? point = some e) :
    ∃ a ∈ jsxOf m, e = .ofNode source limit a ∧ (rangeOf source a.span).contains point = true ∧
      ∀ b ∈ jsxOf m, (rangeOf source b.span).contains point = true → a ∈ b.preorder := by
  rw [InspectIndex.find?, ofModule_eq_map_jsx hdepth, List.map_map] at he
  obtain ⟨a, ha, rfl, hcontains, hdeepest⟩ := h.deepest_of_innermost hm
    (fun n e => e = InspectElement.ofNode source limit n) (fun i hi => by
      obtain ⟨n, hn, rfl⟩ := List.mem_map.1 hi
      exact ⟨n, hn, rfl, range_ofNode hm hn limit⟩) he
  refine ⟨a, ha, rfl, hcontains, fun b hb => hdeepest b hb ⟨InspectElement.ofNode source limit b, ?_⟩⟩
  exact List.mem_map.2 ⟨b, hb, Prod.ext (range_ofNode hm hb limit) rfl⟩

end

end TsxWorkbench.Analysis
