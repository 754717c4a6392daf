/-
The least range around a point. `exists_split_of_innermost` says which item of a list is picked: of the items around the
point none before it is smaller, and all after it are larger. A range that lies in another and is not the same has the
smaller extent (`smallerExtent_of_within`), although extents compare lines and columns apart; so among ranges that nest
like the elements of a source the picked one is the deepest.
-/
import TsxWorkbench.Proofs.Text.Position

namespace TsxWorkbench.Text

variable {α : Type} {point : Position}

/-! ## The pick -/

theorem smallerExtent_iff {a b : Nat × Int} :
    smallerExtent a b = true ↔ a.1 < b.1 ∨ a.1 = b.1 ∧ a.2 < b.2 := by
  simp [smallerExtent]

theorem closer_of_contains {best : Option ((Nat × Int) × α)} {item : TextRange × α}
    (h : item.1.contains point = true) : closer point best item =
      if best.any fun b => smallerExtent b.1 item.1.extent then best else some (item.1.extent, item.2) := by
  cases best with
  | none => simp [closer, h]
  | some b => cases hb : smallerExtent b.1 item.1.extent <;> simp [closer, h, hb]

theorem closer_of_not_contains {best : Option ((Nat × Int) × α)} {item : TextRange × α}
    (h : ¬item.1.contains point = true) : closer point best item = best := by
  simp [closer, h]

/-- the choice after some items: the extent of one of them around the point, such that no item before it is smaller and
all after it are larger -/
structure Picked (point : Position) (items : List (TextRange × α)) (best : (Nat × Int) × α)
    (pre : List (TextRange × α)) (r : TextRange) (post : List (TextRange × α)) : Prop where
  split : items = pre ++ (r, best.2) :: post
  extent : r.extent = best.1
  contains : r.contains point = true
  earlier : ∀ i ∈ pre, i.1.contains point = true → smallerExtent i.1.extent r.extent = false
  later : ∀ i ∈ post, i.1.contains point = true → smallerExtent r.extent i.1.extent = true

/-- one more item: a choice that is smaller stays -/
theorem Picked.keep {items pre post : List (TextRange × α)} {best : (Nat × Int) × α} {r : TextRange}
    (h : Picked point items best pre r post) {item : TextRange × α}
    (hitem : item.1.contains point = true → smallerExtent best.1 item.1.extent = true) :
    Picked point (items ++ [item]) best pre r (post ++ [item]) where
  split := by rw [h.split, List.append_assoc, List.cons_append]
  extent := h.extent
  contains := h.contains
  earlier := h.earlier
  later := by
    simp only [List.forall_mem_append, List.forall_mem_singleton]
    exact ⟨h.later, fun hc => h.extent ▸ hitem hc⟩

/-- one more item: one around the point that is no larger takes the place of the choice -/
theorem Picked.replace {items pre post : List (TextRange × α)} {best : (Nat × Int) × α} {r : TextRange}
    (h : Picked point items best pre r post) {item : TextRange × α} (hcontains : item.1.contains point = true)
    (hitem : ¬smallerExtent best.1 item.1.extent = true) :
    Picked point (items ++ [item]) (item.1.extent, item.2) items item.1 [] where
  split := rfl
  extent := rfl
  contains := hcontains
  earlier := by
    have hearlier := h.earlier
    have hlater := h.later
    rw [← h.extent, smallerExtent_iff] at hitem
    simp only [← Bool.not_eq_true, smallerExtent_iff] at hearlier hlater ⊢
    intro i hi hc
    rw [h.split, List.mem_append, List.mem_cons] at hi
    rcases hi with hi | rfl | hi
    · have := hearlier i hi hc
      omega
    · exact hitem
    · have := hlater i hi hc
      omega
  later := by simp

theorem foldl_closer (point : Position) (items : List (TextRange × α)) :
    match items.foldl (closer point) none with
    | none => ∀ i ∈ items, i.1.contains point = false
    | some best => ∃ pre r post, Picked point items best pre r post := by
  induction items using List.reverseRecOn with
  | nil => simp
  | append_singleton items item ih =>
    rw [List.foldl_append, List.foldl_cons, List.foldl_nil]
    by_cases hitem : item.1.contains point = true
    · rw [closer_of_contains hitem]
      cases hbest : items.foldl (closer point) none with
      | none =>
        rw [hbest] at ih
        exact ⟨items, item.1, [], rfl, rfl, hitem, fun i hi hc => absurd hc (by simp [ih i hi]), by simp⟩
      | some best =>
        rw [hbest] at ih
        obtain ⟨pre, r, post, hpicked⟩ := ih
        rw [Option.any_some]
        split_ifs with hsmaller
        · exact ⟨pre, r, post ++ [item], hpicked.keep fun _ => hsmaller⟩
        · exact ⟨items, item.1, [], hpicked.replace hitem hsmaller⟩
    · rw [closer_of_not_contains hitem]
      cases hbest : items.foldl (closer point) none with
      | none =>
        rw [hbest] at ih
        simpa [or_imp, forall_and] using ⟨fun a b => ih (a, b), Bool.eq_false_iff.2 hitem⟩
      | some best =>
        rw [hbest] at ih
        obtain ⟨pre, r, post, hpicked⟩ := ih
        exact ⟨pre, r, post ++ [item], hpicked.keep fun hc => absurd hc hitem⟩

theorem innermost_eq_none_iff {items : List (TextRange × α)} :
    innermost items point = none ↔ ∀ i ∈ items, i.1.contains point = false := by
  have hfold := foldl_closer point items
  unfold innermost
  cases hbest : items.foldl (closer point) none with
  | none =>
    rw [hbest] at hfold
    exact ⟨fun _ => hfold, fun _ => rfl⟩
  | some best =>
    rw [hbest] at hfold
    obtain ⟨pre, r, post, hpicked⟩ := hfold
    have hmem : (r, best.2) ∈ items := hpicked.split ▸ List.mem_append_cons_self
    exact ⟨nofun, fun h => absurd hpicked.contains (by simp [h _ hmem])⟩

/-- the pick: an item around the point, none before it smaller, all after it larger -/
theorem exists_split_of_innermost {items : List (TextRange × α)} {a : α} (h : innermost items point = some a) :
    ∃ pre r post, items = pre ++ (r, a) :: post ∧ r.contains point = true ∧
      (∀ i ∈ pre, i.1.contains point = true → smallerExtent i.1.extent r.extent = false) ∧
      ∀ i ∈ post, i.1.contains point = true → smallerExtent r.extent i.1.extent = true := by
  have hfold := foldl_closer point items
  obtain ⟨best, hbest, rfl⟩ := Option.map_eq_some_iff.1 h
  rw [hbest] at hfold
  obtain ⟨pre, r, post, hpicked⟩ := hfold
  exact ⟨pre, r, post, hpicked.split, hpicked.contains, hpicked.earlier, hpicked.later⟩

/-- no item around the point is smaller than the pick -/
theorem least_of_innermost {items : List (TextRange × α)} {a : α} (h : innermost items point = some a) :
    ∃ r, (r, a) ∈ items ∧ r.contains point = true ∧
      ∀ i ∈ items, i.1.contains point = true → smallerExtent i.1.extent r.extent = false := by
  obtain ⟨pre, r, post, rfl, hr, hpre, hpost⟩ := exists_split_of_innermost h
  refine ⟨r, List.mem_append_cons_self, hr, fun i hi hc => ?_⟩
  simp only [← Bool.not_eq_true, smallerExtent_iff] at hpre hpost ⊢
  rw [List.mem_append, List.mem_cons] at hi
  rcases hi with hi | rfl | hi
  · exact hpre i hi hc
  · dsimp only
    omega
  · have := hpost i hi hc
    omega

/-- what is picked is one of the items -/
theorem mem_of_innermost_eq_some {items : List (TextRange × α)} {a : α} (h : innermost items point = some a) :
    ∃ r, (r, a) ∈ items := by
  obtain ⟨r, hr, -⟩ := least_of_innermost h
  exact ⟨r, hr⟩

/-! ## Ranges in ranges -/

/-- a range that lies in another one and is not the same is smaller -/
theorem smallerExtent_of_within {r s : TextRange} (hr : r.start.atOrBefore r.stop = true)
    (hstart : s.start.atOrBefore r.start = true) (hstop : r.stop.atOrBefore s.stop = true) (hne : r ≠ s) :
    smallerExtent r.extent s.extent = true := by
  obtain ⟨rl, rc, rl', rc'⟩ := r
  obtain ⟨sl, sc, sl', sc'⟩ := s
  simp only [Position.atOrBefore_iff, TextRange.start, TextRange.stop] at hr hstart hstop
  simp only [ne_eq, TextRange.mk.injEq, not_and] at hne
  simp only [smallerExtent_iff, TextRange.extent]
  omega

/-- a point in a range is in every range around it -/
theorem contains_of_within {r s : TextRange} (hstart : s.start.atOrBefore r.start = true)
    (hstop : r.stop.atOrBefore s.stop = true) (h : r.contains point = true) : s.contains point = true := by
  simp only [TextRange.contains, Bool.and_eq_true, Position.atOrBefore_iff, Position.before_iff] at *
  omega

/-- ranges around one point are not apart -/
theorem not_apart_of_contains {r s : TextRange} (hr : r.contains point = true) (hs : s.contains point = true) :
    ¬r.stop.atOrBefore s.start = true := by
  simp only [TextRange.contains, Bool.and_eq_true, Position.atOrBefore_iff, Position.before_iff] at *
  omega

end TsxWorkbench.Text
