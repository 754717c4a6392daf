/-
What the editors select where the index of a module has a match. Both pick the least range around a point, the index
among elements and fragments, the editors among elements alone. Where the ranges nest as the tree does, the least is
the deepest (`JsxNested.deepest_of_innermost`), so that both end at one place of the tree:
`locate_agrees` says that a matched element is the selected one, that for a matched fragment the nearest element around
it is selected, and that without a match nothing is.
-/
import TsxWorkbench.Proofs.Analysis.Inspection
import TsxWorkbench.Proofs.Edit.Element

namespace TsxWorkbench.Edit

open Text Syntax Syntax.Node Analysis

variable {source : List Char} {m : Module} {point : Position} {a n : Node} {e : Element}

/-! ## Elements among elements and fragments -/

theorem isJsx_of_ofNode? (h : Element.ofNode? n = some e) : isJsx n = true := by
  unfold Element.ofNode? at h
  split at h
  · rfl
  · cases h

theorem span_of_ofNode? (h : Element.ofNode? n = some e) : e.span = n.span := by
  unfold Element.ofNode? at h
  split at h
  · cases h
    rfl
  · cases h

/-- the elements that an edit chooses from -/
theorem mem_elementItems {i : TextRange × Element} :
    i ∈ (m.preorder.filterMap Element.ofNode?).map (fun e => (rangeOf source e.span, e)) ↔
      ∃ n ∈ jsxOf m, Element.ofNode? n = some i.2 ∧ i.1 = rangeOf source n.span := by
  constructor
  · intro h
    obtain ⟨e, he, rfl⟩ := List.mem_map.1 h
    obtain ⟨n, hn, hne⟩ := List.mem_filterMap.1 he
    exact ⟨n, List.mem_filter.2 ⟨hn, isJsx_of_ofNode? hne⟩, hne, by rw [span_of_ofNode? hne]⟩
  · rintro ⟨n, hn, hne, hrange⟩
    refine List.mem_map.2 ⟨i.2, List.mem_filterMap.2 ⟨n, mem_preorder_of_mem_jsxOf hn, hne⟩, ?_⟩
    rw [span_of_ofNode? hne, ← hrange]

theorem elementAt?_eq_none_iff : elementAt? source m point = none ↔
    ∀ n ∈ jsxOf m, (Element.ofNode? n).isSome → (rangeOf source n.span).contains point = false := by
  rw [elementAt?, innermost_eq_none_iff]
  constructor
  · intro h n hn helement
    obtain ⟨e, he⟩ := Option.isSome_iff_exists.1 helement
    exact h (rangeOf source n.span, e) (mem_elementItems.2 ⟨n, hn, he, rfl⟩)
  · intro h i hi
    obtain ⟨n, hn, he, hrange⟩ := mem_elementItems.1 hi
    rw [hrange]
    exact h n hn (Option.isSome_iff_exists.2 ⟨_, he⟩)

/-- the selected element is the deepest one around the point -/
theorem deepest_of_elementAt? (h : JsxNested m) (hm : parseModule source = .ok m)
    (he : elementAt? source m point = some e) :
    ∃ a ∈ jsxOf m, Element.ofNode? a = some e ∧ (rangeOf source a.span).contains point = true ∧
      ∀ b ∈ jsxOf m, (Element.ofNode? b).isSome → (rangeOf source b.span).contains point = true →
        a ∈ b.preorder := by
  obtain ⟨a, ha, hae, hcontains, hdeepest⟩ := h.deepest_of_innermost hm (fun n e => Element.ofNode? n = some e)
    (fun i hi => mem_elementItems.1 hi) he
  refine ⟨a, ha, hae, hcontains, fun b hb helement => hdeepest b hb ?_⟩
  obtain ⟨e', he'⟩ := Option.isSome_iff_exists.1 helement
  exact ⟨e', mem_elementItems.2 ⟨b, hb, he', rfl⟩⟩

/-! ## Selection -/

/-- in a source that is a module, an edit works on the element around its point, or says that there is none -/
theorem locate_eq (h : JsxNested m) (hm : parseModule source = .ok m) (hsource : ∃ c ∈ source, isBlank c = false) :
    locate source point = match elementAt? source m point with
      | some e => .ok e
      | none => .error (.noElement point) := by
  have hfull : ¬(trim source).isEmpty = true := by
    obtain ⟨c, hc, hsolid⟩ := hsource
    intro hempty
    have hblank := isBlank_of_trim_eq_nil (List.isEmpty_iff.1 hempty) c hc
    exact Bool.false_ne_true (hsolid.symm.trans hblank)
  unfold locate
  rw [if_neg hfull, hm]
  dsimp only
  cases he : elementAt? source m point with
  | none => rfl
  | some e =>
    obtain ⟨a, ha, hae, -⟩ := deepest_of_elementAt? h hm he
    have hopening : e.opening.whole.lo < e.opening.whole.hi := by
      unfold Element.ofNode? at hae
      split at hae
      · cases hae
        exact h.opening _ _ _ _ _ _ _ ha
      · cases hae
    exact if_neg (Nat.not_le.2 hopening)

/-- the element around a part of a module that has no other element around that part below it -/
def Nearest (m : Module) (part : Node) (a : Node) : Prop :=
  a ∈ jsxOf m ∧ part ∈ a.preorder ∧
    ∀ b ∈ jsxOf m, (Element.ofNode? b).isSome → part ∈ b.preorder → a ∈ b.preorder

/-- what an edit selects at a point for what the index finds there -/
structure Agreement (source : List Char) (limit : Nat) (m : Module) (point : Position) : Prop where
  /-- the index finds an element or a fragment of the module -/
  listed : ∀ entry, (InspectIndex.ofModule source limit m).find? point = some entry →
    ∃ n ∈ jsxOf m, entry = .ofNode source limit n
  /-- an element that is found is the selected one -/
  element : ∀ n ∈ jsxOf m, ∀ e, Element.ofNode? n = some e →
    (InspectIndex.ofModule source limit m).find? point = some (.ofNode source limit n) → locate source point = .ok e
  /-- for a fragment, the nearest element around it is selected, if there is one -/
  fragment : ∀ n ∈ jsxOf m, Element.ofNode? n = none →
    (InspectIndex.ofModule source limit m).find? point = some (.ofNode source limit n) →
      (∃ a e, Nearest m n a ∧ Element.ofNode? a = some e ∧ locate source point = .ok e) ∨
      ((∀ b ∈ jsxOf m, (Element.ofNode? b).isSome → n ∉ b.preorder) ∧
        locate source point = .error (.noElement point))
  /-- where nothing is found, nothing is selected -/
  nothing : (InspectIndex.ofModule source limit m).find? point = none → locate source point = .error (.noElement point)

/-- the entry that the index finds is the one of the deepest element or fragment around the point -/
theorem deepest_of_entry (h : JsxNested m) (hm : parseModule source = .ok m) (hdepth : JsxDepthLe maxJsxDepth m)
    {limit : Nat} (hn : n ∈ jsxOf m)
    (hfind : (InspectIndex.ofModule source limit m).find? point = some (.ofNode source limit n)) :
    (rangeOf source n.span).contains point = true ∧
      ∀ b ∈ jsxOf m, (rangeOf source b.span).contains point = true → n ∈ b.preorder := by
  obtain ⟨a, ha, hentry, hcontains, hdeepest⟩ := deepest_of_find? h hm hdepth hfind
  have hrange := congrArg InspectElement.range hentry
  rw [range_ofNode hm hn, range_ofNode hm ha] at hrange
  obtain rfl := h.eq_of_range hm hn ha hrange
  exact ⟨hcontains, hdeepest⟩

/-- **The editors select what the inspector finds.** -/
theorem locate_agrees (source : List Char) (limit : Nat) (point : Position) (hsource : ∃ c ∈ source, isBlank c = false)
    {m : Module} (hm : parseModule source = .ok m) (hdepth : JsxDepthLe maxJsxDepth m) (h : JsxNested m) :
    Agreement source limit m point where
  listed := by
    intro entry hfind
    obtain ⟨a, ha, hentry, -⟩ := deepest_of_find? h hm hdepth hfind
    exact ⟨a, ha, hentry⟩
  element := by
    intro n hn e he hfind
    obtain ⟨hcontains, hdeepest⟩ := deepest_of_entry h hm hdepth hn hfind
    rw [locate_eq h hm hsource]
    cases hselected : elementAt? source m point with
    | none =>
      have hnone := elementAt?_eq_none_iff.1 hselected n hn (Option.isSome_iff_exists.2 ⟨e, he⟩)
      exact absurd hcontains (by simp [hnone])
    | some e' =>
      -- each of the two is the deepest, so each is part of the other
      obtain ⟨a, ha, hae, hcontains', hdeepest'⟩ := deepest_of_elementAt? h hm hselected
      have hna := hdeepest a ha hcontains'
      have han := hdeepest' n hn (Option.isSome_iff_exists.2 ⟨e, he⟩) hcontains
      obtain rfl := h.antisymm hn ha hna han
      exact congrArg Except.ok (Option.some.inj (hae.symm.trans he))
  fragment := by
    intro n hn hfragment hfind
    obtain ⟨hcontains, hdeepest⟩ := deepest_of_entry h hm hdepth hn hfind
    rw [locate_eq h hm hsource]
    cases hselected : elementAt? source m point with
    | none =>
      refine .inr ⟨fun b hb helement hpart => ?_, rfl⟩
      have hnone := elementAt?_eq_none_iff.1 hselected b hb helement
      exact absurd (h.contains_of_mem_preorder hm hb hn hpart hcontains) (by simp [hnone])
    | some e =>
      obtain ⟨a, ha, hae, hcontains', hdeepest'⟩ := deepest_of_elementAt? h hm hselected
      refine .inl ⟨a, e, ⟨ha, hdeepest a ha hcontains', fun b hb helement hpart => ?_⟩, hae, rfl⟩
      exact hdeepest' b hb helement (h.contains_of_mem_preorder hm hb hn hpart hcontains)
  nothing := by
    intro hfind
    have hnone : elementAt? source m point = none :=
      elementAt?_eq_none_iff.2 fun n hn _ => (find?_eq_none_iff hm hdepth).1 hfind n hn
    rw [locate_eq h hm hsource, hnone]

/-- a fragment in an element -/
def fragmentInElement : List Char := "<a><></></a>".toList

/-- whether the tag of an element is not empty -/
def hasTag : Node → Bool
  | .element _ _ opening .. => opening.whole.lo < opening.whole.hi
  | _ => true

/-- a module of two elements or fragments, one inside the other -/
def isNestedPair (m : Module) : Bool :=
  match jsxOf m with
  | [outer, inner] => (outer.preorder.filter isJsx).length == 2 && outer.span.lo < inner.span.lo &&
      inner.span.lo < inner.span.hi && inner.span.hi < outer.span.hi && hasTag outer && hasTag inner
  | _ => false

theorem nested_of_isNestedPair (h : isNestedPair m = true) : JsxNested m ∧ JsxDepthLe maxJsxDepth m := by
  unfold isNestedPair at h
  split at h
  · rename_i outer inner hjsx
    simp only [Bool.and_eq_true, beq_iff_eq, decide_eq_true_eq] at h
    obtain ⟨⟨⟨⟨⟨hlength, hlo⟩, hinner⟩, hhi⟩, houtertag⟩, hinnertag⟩ := h
    have hitem {item n : Node} (hi : item ∈ m.items) (hn : n ∈ item.preorder) :
        (n.preorder.filter isJsx).Sublist [outer, inner] := by
      rw [← hjsx]
      exact ((preorder_sublist hn).trans (List.sublist_flatten_of_mem (List.mem_map_of_mem hi))).filter isJsx
    have hpart : inner ∈ outer.preorder := by
      have houter : outer ∈ m.preorder := mem_preorder_of_mem_jsxOf (by simp [hjsx])
      obtain ⟨item, hi, hn⟩ := List.mem_flatMap.1 houter
      have hall := (hitem hi hn).eq_of_length hlength
      exact (List.mem_filter.1 (hall ▸ List.mem_cons_of_mem _ List.mem_cons_self)).1
    have hnot : outer ∉ inner.preorder := by
      intro hmem
      have hsame := (preorder_sublist hmem).antisymm (preorder_sublist hpart)
      rw [preorder_eq outer, preorder_eq inner] at hsame
      rw [(List.cons.inj hsame).1] at hlo
      exact Nat.lt_irrefl _ hlo
    have htag : ∀ n ∈ jsxOf m, hasTag n = true := by simp [hjsx, houtertag, hinnertag]
    refine ⟨⟨?_, ?_, ?_, ?_, fun _ _ _ _ _ _ _ hn => of_decide_eq_true (htag _ hn)⟩, fun item hi k n hk hn => ?_⟩
    · simp only [hjsx, List.mem_cons, List.not_mem_nil, or_false, forall_eq_or_imp, forall_eq]
      omega
    · have hspan : outer.span ≠ inner.span := fun heq => Nat.lt_irrefl _ (heq ▸ hlo)
      simpa [hjsx] using hspan
    · intro a ha b hb hab
      simp only [hjsx, List.mem_cons, List.not_mem_nil, or_false] at ha hb
      rcases ha with rfl | rfl <;> rcases hb with rfl | rfl
      · omega
      · omega
      · exact absurd hab hnot
      · omega
    · simp [hjsx, hpart, mem_preorder_self]
    · have hlt := (hk.lt_length hn).trans_le (hitem hi (mem_preorder_self item)).length_le
      rw [List.length_cons, List.length_singleton] at hlt
      rw [maxJsxDepth]
      omega
  · cases h

/-- inside the fragment, the element around it is selected -/
theorem locate_agrees_fragmentInElement : ∃ m, parseModule fragmentInElement = .ok m ∧
    Agreement fragmentInElement 120 m ⟨1, 5⟩ ∧
    ((InspectIndex.ofModule fragmentInElement 120 m).find? ⟨1, 5⟩).map InspectElement.name = some none ∧
    (locate fragmentInElement ⟨1, 5⟩).toOption.map (fun e => e.tag.text) = some "a" := by
  have hany : (parseModule fragmentInElement).toOption.any (fun m => isNestedPair m &&
      ((InspectIndex.ofModule fragmentInElement 120 m).find? ⟨1, 5⟩).map InspectElement.name == some none) = true := by
    decide +kernel
  obtain ⟨m, hm, hpair⟩ := exists_of_toOption_any hany
  rw [Bool.and_eq_true, beq_iff_eq] at hpair
  obtain ⟨hnested, hdepth⟩ := nested_of_isNestedPair hpair.1
  exact ⟨m, hm, locate_agrees fragmentInElement 120 ⟨1, 5⟩ ⟨'<', by decide, by decide⟩ hm hdepth hnested, hpair.2,
    by decide +kernel⟩

end TsxWorkbench.Edit
