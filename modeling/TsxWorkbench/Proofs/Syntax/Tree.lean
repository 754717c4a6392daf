/-
What holds of every node of a tree that was read from a text: the node covers a range between two boundaries of the
text, and where an edit works with the places of a node's parts, the parts lie where the edit expects them.

- `Node.Placed`: a node and all below it are in place. It is a matter of the node itself and of its parts
  (`placed_iff`).
- `Series`: the entries of an object follow one another inside it, and so do the children of an element after its
  opening tag.
- `TagsPlaced`: the opening tag of an element holds its name, its type arguments and then its attributes, one after the
  other, none of which ends in a blank; its closing tag comes after it.
- `fits_asTarget`: reading an expression as a pattern keeps all nodes in place.
-/
import TsxWorkbench.Proofs.Text.Bytes
import TsxWorkbench.Syntax.Grammar.Pattern

namespace TsxWorkbench.Syntax

open Text

variable {source : List Char} {lo hi lo' hi' : Nat}

/-! ## Tags -/

/-- attributes that follow one another between two places, none of which ends in a blank -/
def Row (source : List Char) : Nat → List Node → Nat → Prop
  | lo, [], hi => lo ≤ hi
  | lo, a :: rest, hi => SpanFits source lo hi a.span ∧ Solid source a.span.hi ∧ Row source a.span.hi rest hi

theorem Row.le {as : List Node} (h : Row source lo as hi) : lo ≤ hi := by
  cases as with
  | nil => exact h
  | cons a as => exact (h.1.lo_le.trans h.1.le).trans h.1.hi_le

/-- end of the last attribute, or the place for attributes if there is none -/
def lastEnd : Nat → List Node → Nat
  | lo, [] => lo
  | _, a :: rest => lastEnd a.span.hi rest

/-- attributes that follow one another reach no further than to the end of the last one -/
theorem Row.untilLast {as : List Node} (h : Row source lo as hi) : Row source lo as (lastEnd lo as) := by
  induction as generalizing lo with
  | nil => exact Nat.le_refl lo
  | cons a rest ih =>
    obtain ⟨hspan, hsolid, hrest⟩ := h
    have hrow := ih hrest
    exact ⟨⟨hspan.lo_le, hspan.le, hrow.le, hspan.boundary_lo, hspan.boundary_hi⟩, hsolid, hrow⟩

theorem Row.solid_lastEnd {as : List Node} (hlo : Solid source lo) (h : Row source lo as hi) :
    Solid source (lastEnd lo as) := by
  induction as generalizing lo with
  | nil => exact hlo
  | cons a rest ih => exact ih h.2.1 h.2.2

/-- the tags of an element in their order: the name, the type arguments and the attributes lie in the opening tag, and
the closing tag comes after it -/
structure TagsPlaced (source : List Char) (opening : TagSpans) (closing : Option Span) (attributes : List Node) :
    Prop where
  place : Solid source (opening.typeArgs.getD opening.name).hi
  attributes : Row source (opening.typeArgs.getD opening.name).hi attributes opening.whole.hi
  stop : Boundary source opening.whole.hi
  closing : ∀ c, closing = some c → opening.whole.hi ≤ c.lo ∧ Boundary source c.lo

/-! ## Entries -/

/-- nodes that follow one another between two places -/
def Series (source : List Char) : Nat → List Node → Nat → Prop
  | lo, [], hi => lo ≤ hi
  | lo, a :: rest, hi => SpanFits source lo hi a.span ∧ Series source a.span.hi rest hi

theorem Series.lower {as : List Node} (h : Series source lo as hi) (hlo : lo' ≤ lo) : Series source lo' as hi := by
  cases as with
  | nil => exact hlo.trans h
  | cons a as => exact ⟨h.1.mono hlo (Nat.le_refl _), h.2⟩

theorem Series.raise {as : List Node} (h : Series source lo as hi) (hhi : hi ≤ hi') : Series source lo as hi' := by
  induction as generalizing lo with
  | nil => exact h.trans hhi
  | cons a as ih => exact ⟨h.1.mono (Nat.le_refl _) hhi, ih h.2⟩

theorem Series.le {as : List Node} (h : Series source lo as hi) : lo ≤ hi := by
  cases as with
  | nil => exact h
  | cons a as => exact (h.1.lo_le.trans h.1.le).trans h.1.hi_le

/-- a node that lies after a series makes it longer -/
theorem Series.concat {as : List Node} {a : Node} (h : Series source lo as hi) (ha : SpanFits source hi hi' a.span) :
    Series source lo (as ++ [a]) hi' := by
  induction as generalizing lo with
  | nil => exact ⟨ha.mono h (Nat.le_refl _), ha.hi_le⟩
  | cons b bs ih => exact ⟨h.1.mono (Nat.le_refl _) ((ha.lo_le.trans ha.le).trans ha.hi_le), ih h.2⟩

/-! ## Nodes -/

namespace Node

attribute [simp] children

/-- what a node itself promises about the places of its parts -/
def PartsPlaced (source : List Char) : Node → Prop
  | wrapped span _ inner _ => SpanFits source span.lo span.hi inner.span
  | container span (some inner) => span.lo < inner.span.lo ∧ SpanFits source span.lo span.hi inner.span
  | attr span _ (some value) => SpanFits source span.lo span.hi value.span
  | object span entries => Series source span.lo entries span.hi
  | keyValue span _ value => SpanFits source span.lo span.hi value.span
  | element span _ opening closing attributes _ children => TagsPlaced source opening closing attributes ∧
      span.lo ≤ opening.whole.hi ∧ Series source opening.whole.hi children span.hi
  | fragment span children => Series source span.lo children span.hi
  | _ => True

/-- a node that is in place, and all below it -/
def Placed (source : List Char) (n : Node) : Prop :=
  ∀ m ∈ n.preorder, SpanFits source m.span.lo m.span.hi m.span ∧ m.PartsPlaced source

/-- nodes of a list that are all in place -/
def AllPlaced (source : List Char) (ns : List Node) : Prop := ∀ n ∈ ns, n.Placed source

theorem placed_iff {n : Node} :
    n.Placed source ↔ SpanFits source n.span.lo n.span.hi n.span ∧ n.PartsPlaced source ∧
      AllPlaced source n.children := by
  rw [Placed, preorder_eq]
  simp only [List.forall_mem_cons, List.mem_flatMap, forall_exists_index, and_imp, and_assoc, AllPlaced, Placed]
  exact and_congr_right fun _ => and_congr_right fun _ =>
    ⟨fun h c hc m hm => h m c hc hm, fun h m c hc hm => h c hc m hm⟩

@[simp] theorem allPlaced_nil : AllPlaced source [] := fun _ h => absurd h List.not_mem_nil

@[simp] theorem allPlaced_cons {n : Node} {ns : List Node} :
    AllPlaced source (n :: ns) ↔ n.Placed source ∧ AllPlaced source ns := List.forall_mem_cons

@[simp] theorem allPlaced_append {ms ns : List Node} :
    AllPlaced source (ms ++ ns) ↔ AllPlaced source ms ∧ AllPlaced source ns := List.forall_mem_append

theorem mem_preorder_self (n : Node) : n ∈ n.preorder := by
  rw [preorder_eq]
  exact List.mem_cons_self

/-- the nodes below a node stand together in the order of the tree -/
theorem preorder_sublist {a n : Node} (h : n ∈ a.preorder) : n.preorder.Sublist a.preorder := by
  induction a using preorder.induct with
  | case1 a ih =>
    rw [preorder_eq a, List.mem_cons] at h
    rcases h with rfl | h
    · exact .refl _
    · obtain ⟨c, hc, hn⟩ := List.mem_flatMap.1 h
      rw [preorder_eq a]
      exact ((ih ⟨c, hc⟩ hn).trans (List.sublist_flatten_of_mem (List.mem_map_of_mem hc))).cons a

/-- what stands below a part of a node stands below the node -/
theorem mem_preorder_of_mem_preorder {a b c : Node} (hb : b ∈ c.preorder) (ha : a ∈ b.preorder) : a ∈ c.preorder := by
  induction c using preorder.induct with
  | case1 c ih =>
    rw [preorder_eq] at hb ⊢
    rcases List.mem_cons.1 hb with rfl | hb
    · rwa [preorder_eq] at ha
    · obtain ⟨d, hd, hb⟩ := List.mem_flatMap.1 hb
      exact List.mem_cons_of_mem _ (List.mem_flatMap.2 ⟨d, hd, ih ⟨d, hd⟩ hb⟩)

theorem Placed.of_mem_preorder {m n : Node} (h : n.Placed source) (hm : m ∈ n.preorder) : m.Placed source :=
  fun _ ha => h _ (mem_preorder_of_mem_preorder hm ha)

theorem Placed.one {n : Node} (h : n.Placed source) : AllPlaced source [n] := by simpa using h

/-- a node in place that lies inside a window -/
structure Fits (source : List Char) (lo hi : Nat) (n : Node) : Prop where
  span : SpanFits source lo hi n.span
  placed : n.Placed source

theorem Fits.mono {n : Node} (h : n.Fits source lo hi) (hlo : lo' ≤ lo) (hhi : hi ≤ hi') : n.Fits source lo' hi' :=
  ⟨h.span.mono hlo hhi, h.placed⟩

/-- a node of a given range is in place if the range is and its parts are -/
theorem Fits.of_span {n : Node} {s : Span} (hn : n.span = s) (hs : SpanFits source lo hi s)
    (hparts : n.PartsPlaced source) (hchildren : AllPlaced source n.children) : n.Fits source lo hi := by
  subst hn
  exact ⟨hs, placed_iff.2 ⟨⟨Nat.le_refl _, hs.le, Nat.le_refl _, hs.boundary_lo, hs.boundary_hi⟩, hparts, hchildren⟩⟩

theorem Placed.children {n : Node} (h : n.Placed source) : AllPlaced source n.children := (placed_iff.1 h).2.2

theorem Placed.parts {n : Node} (h : n.Placed source) : n.PartsPlaced source := (placed_iff.1 h).2.1

theorem Placed.fits {n : Node} (h : n.Placed source) : n.Fits source n.span.lo n.span.hi := ⟨(placed_iff.1 h).1, h⟩

end Node

/-! ## Patterns -/

open Node in
/-- reading an expression as a pattern keeps its range, and keeps all nodes in place -/
theorem fits_asTarget {n : Node} (h : n.Fits source lo hi) : (asTarget n).Fits source lo hi := by
  have span (n : Node) : (asTarget n).span = n.span := by
    fun_cases asTarget n <;> rfl
  suffices hplaced : ∀ n : Node, n.Placed source → (asTarget n).Placed source from
    ⟨(span n).symm ▸ h.span, hplaced n h.placed⟩
  intro n
  fun_induction asTarget n with
  | case1 s elements ih | case2 s elements ih =>
    intro h
    refine placed_iff.2 ⟨h.fits.span, trivial, fun m hm => ?_⟩
    obtain ⟨e, -, rfl⟩ := List.mem_map.1 hm
    exact ih e (h.children _ e.2)
  | case3 s key value ih =>
    intro h
    have hparts := h.children
    simp only [children, allPlaced_cons, allPlaced_nil, and_true] at hparts
    have hvalue : SpanFits source s.lo s.hi (asTarget value).span := (span value).symm ▸ h.parts
    exact placed_iff.2 ⟨h.fits.span, hvalue, by simp [hparts.1, ih hparts.2]⟩
  | case4 s inner ih =>
    intro h
    have hparts := h.children
    simp only [children, allPlaced_cons, allPlaced_nil, and_true] at hparts
    exact placed_iff.2 ⟨h.fits.span, trivial, by simp [ih hparts]⟩
  | case5 s target value =>
    intro h
    exact placed_iff.2 ⟨h.fits.span, trivial, h.children⟩
  | case6 n => exact id

end TsxWorkbench.Syntax
