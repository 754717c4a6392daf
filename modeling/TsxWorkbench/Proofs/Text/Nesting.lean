/-
What the pick of `innermost` is, and that it is the deepest of nested ranges.

- `innermost_eq_getLast?`: the last of the items around the point that have the least extent.
- `NestedListing`: of two ranges of the list, the later one lies in the earlier one or has no point in common with it,
  as in a tree whose nodes are listed before the nodes below them. Equal ranges may occur.
- `deepest_of_innermost`: in such a list the pick lies in all ranges around the point, and has more ranges of the list
  around it than any other item around the point.

Extents compare lines before columns, and a range of several lines may end left of where it starts. That does no harm,
because only ranges around one point are compared, and of these one lies in the other.
-/
import TsxWorkbench.Proofs.Text.Innermost

namespace TsxWorkbench.Text

variable {α : Type} {point : Position} {items pre post : List (TextRange × α)} {i j : TextRange × α} {r s t : TextRange}
  {a : α}

/-! ## The least extent -/

theorem smallerExtent_asymm {x y : Nat × Int} (h : smallerExtent x y = true) : smallerExtent y x = false := by
  rw [← Bool.not_eq_true, smallerExtent_iff]
  rw [smallerExtent_iff] at h
  omega

/-- an item around a point such that no other item around it is smaller -/
def isLeast (point : Position) (items : List (TextRange × α)) (i : TextRange × α) : Bool :=
  i.1.contains point && items.all fun j => !(j.1.contains point && smallerExtent j.1.extent i.1.extent)

theorem isLeast_iff : isLeast point items i = true ↔ i.1.contains point = true ∧
    ∀ j ∈ items, j.1.contains point = true → smallerExtent j.1.extent i.1.extent = false := by
  rw [isLeast, Bool.and_eq_true, List.all_eq_true]
  refine and_congr_right fun _ => forall₂_congr fun j _ => ?_
  cases j.1.contains point <;> simp

/-- **The pick.** It is the last of the items of least extent around the point. -/
theorem innermost_eq_getLast? (items : List (TextRange × α)) (point : Position) :
    innermost items point = (items.filter (isLeast point items)).getLast?.map Prod.snd := by
  cases hpick : innermost items point with
  | none =>
    have hnone := innermost_eq_none_iff.1 hpick
    have hempty : items.filter (isLeast point items) = [] := by
      refine List.filter_eq_nil_iff.2 fun i hi hleast => ?_
      have hcontains := (isLeast_iff.1 hleast).1
      rw [hnone i hi] at hcontains
      cases hcontains
    rw [hempty]
    rfl
  | some a =>
    obtain ⟨pre, r, post, hsplit, hr, hpre, hpost⟩ := exists_split_of_innermost hpick
    have hleast : isLeast point items (r, a) = true := by
      refine isLeast_iff.2 ⟨hr, fun i hi hc => ?_⟩
      rw [hsplit, List.mem_append, List.mem_cons] at hi
      rcases hi with hi | rfl | hi
      · exact hpre i hi hc
      · exact Bool.eq_false_iff.2 fun h => Bool.eq_false_iff.1 (smallerExtent_asymm h) h
      · exact smallerExtent_asymm (hpost i hi hc)
    have hlast : post.filter (isLeast point items) = [] := by
      refine List.filter_eq_nil_iff.2 fun i hi h => ?_
      obtain ⟨hc, hall⟩ := isLeast_iff.1 h
      have hsame := hall (r, a) (hsplit ▸ List.mem_append_cons_self) hr
      rw [hpost i hi hc] at hsame
      cases hsame
    have hfilter : items.filter (isLeast point items) = pre.filter (isLeast point items) ++ [(r, a)] := by
      conv_lhs => rw [hsplit, List.filter_append, ← hsplit, List.filter_cons_of_pos hleast, hlast]
    rw [hfilter, List.getLast?_concat]
    rfl

/-! ## Nested ranges -/

namespace TextRange

/-- a range that reaches no further than another one to either side -/
def within (r s : TextRange) : Bool := s.start.atOrBefore r.start && r.stop.atOrBefore s.stop

/-- ranges without a common point -/
def Disjoint (r s : TextRange) : Prop := ∀ p, r.contains p = true → s.contains p = false

theorem within_iff : r.within s = true ↔ s.start.atOrBefore r.start = true ∧ r.stop.atOrBefore s.stop = true := by
  rw [within, Bool.and_eq_true]

theorem within_refl (r : TextRange) : r.within r = true := by
  rw [within_iff, Position.atOrBefore_iff, Position.atOrBefore_iff]
  omega

theorem within_trans (hrs : r.within s = true) (hst : s.within t = true) : r.within t = true := by
  simp only [within_iff, Position.atOrBefore_iff] at *
  omega

/-- a range that holds a point does not end before it starts -/
theorem start_le_stop (h : r.contains point = true) : r.start.atOrBefore r.stop = true := by
  simp only [contains, Bool.and_eq_true, Position.atOrBefore_iff, Position.before_iff] at *
  omega

/-- a range that ends where another one starts, or before -/
theorem disjoint_of_stop_le (h : r.stop.atOrBefore s.start = true) : r.Disjoint s := by
  intro p hr
  refine Bool.eq_false_iff.2 fun hs => not_apart_of_contains hr hs h

theorem Disjoint.symm (h : r.Disjoint s) : s.Disjoint r := fun p hs =>
  Bool.eq_false_iff.2 fun hr => Bool.eq_false_iff.1 (h p hr) hs

end TextRange

/-- of two ranges of a list, the later one lies in the earlier one or has no point in common with it -/
def NestedListing (items : List (TextRange × α)) : Prop :=
  items.Pairwise fun i j => j.1.within i.1 = true ∨ i.1.Disjoint j.1

/-- number of ranges listed before a range that have it inside -/
def nestingDepth (before : List (TextRange × α)) (r : TextRange) : Nat := before.countP fun i => r.within i.1

/-- an item that lies in all ranges around a point, with more ranges around it than any other item around the point -/
structure Deepest (point : Position) (items pre : List (TextRange × α)) (r : TextRange) (a : α)
    (post : List (TextRange × α)) : Prop where
  split : items = pre ++ (r, a) :: post
  contains : r.contains point = true
  inside : ∀ i ∈ items, i.1.contains point = true → r.within i.1 = true
  deeper : ∀ pre' i post', items = pre' ++ i :: post' → i.1.contains point = true → pre' ≠ pre →
    nestingDepth pre' i.1 < nestingDepth pre r

/-- a range that lies in one before it has all ranges around it that the other one has, and the other one -/
theorem nestingDepth_lt_of_within {mid : List (TextRange × α)} (h : r.within i.1 = true) :
    nestingDepth pre i.1 < nestingDepth (pre ++ i :: mid) r := by
  have hall : nestingDepth pre i.1 ≤ nestingDepth pre r :=
    List.countP_mono_left fun j _ hj => TextRange.within_trans h hj
  have hone : nestingDepth (i :: mid) r = nestingDepth mid r + 1 := List.countP_cons_of_pos h
  have hsum : nestingDepth (pre ++ i :: mid) r = nestingDepth pre r + nestingDepth (i :: mid) r := List.countP_append
  omega

/-- of two ranges around a point, the later one of a nested list lies in the earlier one -/
theorem within_of_contains (h : j.1.within i.1 = true ∨ i.1.Disjoint j.1) (hi : i.1.contains point = true)
    (hj : j.1.contains point = true) : j.1.within i.1 = true := by
  refine h.resolve_right fun hdisjoint => ?_
  rw [hdisjoint point hi] at hj
  cases hj

/-- **Depth.** Of nested ranges, the pick is the deepest one around the point. -/
theorem deepest_of_innermost (hnested : NestedListing items) (h : innermost items point = some a) :
    ∃ pre r post, Deepest point items pre r a post := by
  obtain ⟨pre, r, post, rfl, hr, -, hpost⟩ := exists_split_of_innermost h
  obtain ⟨-, hrest, hpre⟩ := List.pairwise_append.1 hnested
  obtain ⟨hafter, -⟩ := List.pairwise_cons.1 hrest
  have hbefore (i) (hi : i ∈ pre) (hc : i.1.contains point = true) : r.within i.1 = true :=
    within_of_contains (hpre i hi (r, a) List.mem_cons_self) hc hr
  -- a range around the point that is listed after the pick would lie in it, and be no larger
  have hlast (i) (hi : i ∈ post) : i.1.contains point ≠ true := by
    intro hc
    have hlarger := hpost i hi hc
    obtain ⟨hstart, hstop⟩ := TextRange.within_iff.1 (within_of_contains (hafter i hi) hr hc)
    have hsmaller := Bool.eq_false_iff.1 (smallerExtent_asymm hlarger)
    rcases eq_or_ne i.1 r with heq | hne
    · exact hsmaller (heq ▸ heq ▸ hlarger)
    · exact hsmaller (smallerExtent_of_within (TextRange.start_le_stop hc) hstart hstop hne)
  refine ⟨pre, r, post, rfl, hr, ?_, ?_⟩
  · intro i hi hc
    rw [List.mem_append, List.mem_cons] at hi
    rcases hi with hi | rfl | hi
    · exact hbefore i hi hc
    · exact TextRange.within_refl r
    · exact absurd hc (hlast i hi)
  · intro pre' i post' hsplit hc hne
    rcases List.append_eq_append_iff.1 hsplit with ⟨mid, rfl, hmid⟩ | ⟨mid, rfl, hmid⟩
    · -- the other item comes after the pick
      cases mid with
      | nil => exact absurd (List.append_nil pre) hne
      | cons first mid =>
        cases hmid
        exact absurd hc (hlast i (List.mem_append_right _ List.mem_cons_self))
    · cases mid with
      | nil => exact absurd (List.append_nil pre').symm hne
      | cons first mid =>
        cases hmid
        exact nestingDepth_lt_of_within (hbefore i List.mem_append_cons_self hc)

/-- **The innermost range.** Nothing is picked if and only if no range holds the point; what is picked is the last item
of least extent around the point; and of nested ranges it is the deepest one around the point. -/
theorem innermost_deepest (items : List (TextRange × α)) (point : Position) :
    (innermost items point = none ↔ ∀ i ∈ items, i.1.contains point = false) ∧
    innermost items point = (items.filter (isLeast point items)).getLast?.map Prod.snd ∧
    (NestedListing items → ∀ a, innermost items point = some a → ∃ pre r post, Deepest point items pre r a post) :=
  ⟨innermost_eq_none_iff, innermost_eq_getLast? items point, fun hnested _ => deepest_of_innermost hnested⟩

/-- a page with a list that ends left of where it starts, an item of the same range, and what follows the list on its
last line -/
def listOnPage : List (TextRange × String) :=
  [(⟨1, 1, 5, 2⟩, "page"), (⟨2, 9, 4, 3⟩, "list"), (⟨2, 9, 4, 3⟩, "item"), (⟨4, 3, 4, 9⟩, "next")]

theorem nestedListing_listOnPage : NestedListing listOnPage := by
  have hapart (r s : TextRange) (h : r.stop.atOrBefore s.start = true) : r.Disjoint s := TextRange.disjoint_of_stop_le h
  simp only [NestedListing, listOnPage, List.pairwise_cons, List.forall_mem_cons, List.not_mem_nil, false_implies,
    implies_true, and_true, List.Pairwise.nil]
  exact ⟨⟨.inl rfl, .inl rfl, .inl rfl⟩, ⟨.inl rfl, .inr (hapart _ _ rfl)⟩, .inr (hapart _ _ rfl)⟩

theorem innermost_deepest_listOnPage : NestedListing listOnPage ∧
    ∃ pre r post, Deepest ⟨3, 1⟩ listOnPage pre r "item" post :=
  ⟨nestedListing_listOnPage,
    (innermost_deepest listOnPage ⟨3, 1⟩).2.2 nestedListing_listOnPage "item" (by decide)⟩

end TsxWorkbench.Text
