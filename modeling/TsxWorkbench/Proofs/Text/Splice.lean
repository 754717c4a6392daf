/-
What a list of splices does to a text. The splices are carried out from the back, so each one finds the text before the
last one as it was at the start.

- `applySplices_sameOutside`: splices that lie apart inside a window change nothing outside of it.
- `infix_applySplices`: the new text holds the text of each of them.
- `applySplices_pair_place`: where the text of one of two splices stands.
-/
import TsxWorkbench.Proofs.Text.Bytes
import TsxWorkbench.Text.Splice

namespace TsxWorkbench.Text

variable {cs ds : List Char} {lo hi lo' hi' : Nat}

/-- two texts that differ only between two offsets of the first one -/
def SameOutside (cs : List Char) (lo hi : Nat) (ds : List Char) : Prop :=
  ∃ pre old new post, cs = pre ++ (old ++ post) ∧ ds = pre ++ (new ++ post) ∧ byteLen pre = lo ∧
    byteLen (pre ++ old) = hi

/-- a range between two boundaries cuts a text into three pieces -/
theorem SpanFits.split {s : Span} (h : SpanFits cs lo hi s) :
    ∃ pre mid post, cs = pre ++ (mid ++ post) ∧ byteLen pre = s.lo ∧ byteLen (pre ++ mid) = s.hi :=
  h.boundary_lo.split h.boundary_hi h.le

namespace SameOutside

theorem refl (hlo : Boundary cs lo) (hhi : Boundary cs hi) (hle : lo ≤ hi) : SameOutside cs lo hi cs := by
  obtain ⟨pre, old, post, rfl, h₁, h₂⟩ := hlo.split hhi hle
  exact ⟨pre, old, old, post, rfl, rfl, h₁, h₂⟩

theorem widen (h : SameOutside cs lo hi ds) (hlo : Boundary cs lo') (hhi : Boundary cs hi') (hle : lo' ≤ lo)
    (hge : hi ≤ hi') : SameOutside cs lo' hi' ds := by
  obtain ⟨pre, old, new, post, rfl, rfl, rfl, rfl⟩ := h
  obtain ⟨p, rest, hp, rfl⟩ := hlo
  obtain ⟨q, tail, hq, rfl⟩ := hhi
  obtain ⟨before, rfl⟩ := prefix_of_byteLen_le hp.symm hle
  obtain ⟨after, rfl⟩ := prefix_of_byteLen_le (by rw [List.append_assoc, hq]) hge
  obtain rfl : post = after ++ tail := by simpa using hq
  exact ⟨p, before ++ (old ++ after), before ++ (new ++ after), tail, by simp, by simp, rfl, by simp⟩

/-- a change before a place, after a change that starts there -/
theorem trans {es : List Char} {mid : Nat} (h : SameOutside cs mid hi ds) (h' : SameOutside ds lo mid es) :
    SameOutside cs lo hi es := by
  obtain ⟨pre, old, new, post, rfl, rfl, rfl, rfl⟩ := h
  obtain ⟨p, o, n, q, hds, rfl, rfl, hmid⟩ := h'
  rw [← List.append_assoc p] at hds
  obtain ⟨rfl, rfl⟩ : pre = p ++ o ∧ new ++ post = q := append_inj_of_byteLen hds hmid.symm
  exact ⟨p, o ++ old, n ++ new, post, by simp, by simp, rfl, by simp⟩

/-- offsets before the change stay boundaries -/
theorem boundary {n : Nat} (h : SameOutside cs lo hi ds) (hn : Boundary cs n) (hle : n ≤ lo) : Boundary ds n := by
  obtain ⟨pre, old, new, post, rfl, rfl, rfl, -⟩ := h
  obtain ⟨p, rest, hp, rfl⟩ := hn
  obtain ⟨mid, rfl⟩ := prefix_of_byteLen_le hp.symm hle
  rw [List.append_assoc]
  exact boundary_append p _

/-- the text before the change is as it was -/
theorem takeBytes_eq {n : Nat} (h : SameOutside cs lo hi ds) (hn : Boundary cs n) (hle : n ≤ lo) :
    takeBytes n ds = takeBytes n cs := by
  obtain ⟨pre, old, new, post, rfl, rfl, rfl, -⟩ := h
  obtain ⟨p, rest, hp, rfl⟩ := hn
  obtain ⟨mid, rfl⟩ := prefix_of_byteLen_le hp.symm hle
  simp only [List.append_assoc, takeBytes_append]

/-- a piece before the change or after it is still there -/
theorem infix_of_apart {p mid q : List Char} (h : SameOutside (p ++ (mid ++ q)) lo hi ds)
    (hapart : byteLen (p ++ mid) ≤ lo ∨ hi ≤ byteLen p) : mid <:+: ds := by
  obtain ⟨pre, old, new, post, hcut, rfl, rfl, rfl⟩ := h
  rcases hapart with hbefore | hafter
  · rw [← List.append_assoc p] at hcut
    obtain ⟨rest, rfl⟩ := prefix_of_byteLen_le hcut hbefore
    exact ⟨p, rest ++ (new ++ post), by simp⟩
  · rw [← List.append_assoc pre] at hcut
    obtain ⟨rest, rfl⟩ := prefix_of_byteLen_le hcut.symm hafter
    obtain rfl : rest ++ (mid ++ q) = post := by simpa using hcut
    exact ⟨pre ++ new ++ rest, q, by simp⟩

/-- a range before the change or after it is still there -/
theorem infix_slice {s : Span} (h : SameOutside cs lo hi ds) (hs : SpanFits cs lo' hi' s)
    (hapart : s.hi ≤ lo ∨ hi ≤ s.lo) : s.slice cs <:+: ds := by
  obtain ⟨p, mid, q, rfl, hlo, hhi⟩ := hs.split
  rw [← hlo, ← hhi] at hapart
  rw [Span.slice, ← hlo, ← hhi, sliceBytes_append]
  exact h.infix_of_apart hapart

end SameOutside

namespace Splice

variable {s : Splice}

theorem apply_append {pre old post : List Char} (hlo : byteLen pre = s.span.lo)
    (hhi : byteLen (pre ++ old) = s.span.hi) : s.apply (pre ++ (old ++ post)) = pre ++ (s.text ++ post) := by
  rw [apply, ← hlo, ← hhi, takeBytes_append, ← List.append_assoc pre old, dropBytes_append, List.append_assoc]

/-- one splice changes only its range -/
theorem apply_sameOutside (h : SpanFits cs lo hi s.span) : SameOutside cs s.span.lo s.span.hi (s.apply cs) := by
  obtain ⟨pre, old, post, rfl, hlo, hhi⟩ := h.split
  exact ⟨pre, old, s.text, post, rfl, apply_append hlo hhi, hlo, hhi⟩

/-- after a splice, a range before it is where it was -/
theorem fits_apply {range : Span} (h : SpanFits cs lo hi s.span) (hrange : SpanFits cs lo' hi' range)
    (hle : range.hi ≤ s.span.lo) : SpanFits (s.apply cs) lo' s.span.lo range := by
  have happly := apply_sameOutside h
  exact ⟨hrange.lo_le, hrange.le, hle, happly.boundary hrange.boundary_lo (hrange.le.trans hle),
    happly.boundary hrange.boundary_hi hle⟩

theorem later_trans (a b c : Splice) (hab : later a b) (hbc : later b c) : later a c := by
  simp only [later, Bool.or_eq_true, Bool.and_eq_true, decide_eq_true_eq, beq_iff_eq] at *
  omega

theorem later_total (a b : Splice) : (later a b || later b a) = true := by
  simp only [later, Bool.or_eq_true, Bool.and_eq_true, decide_eq_true_eq, beq_iff_eq]
  omega

/-- neither of two splices reaches into the other -/
def Apart (a b : Splice) : Prop := a.span.hi ≤ b.span.lo ∨ b.span.hi ≤ a.span.lo

/-- of two splices that lie apart, the later one starts after the other ends -/
theorem Apart.le_of_later {a b : Splice} (h : Apart a b) (ha : a.span.lo ≤ a.span.hi) (hab : later a b) :
    b.span.hi ≤ a.span.lo := by
  simp only [later, Bool.or_eq_true, Bool.and_eq_true, decide_eq_true_eq, beq_iff_eq] at hab
  rcases h with h | h <;> omega

end Splice

/-- splices that are carried out from the back change only the window they lie in -/
theorem foldl_apply_sameOutside {splices : List Splice} (hfits : ∀ s ∈ splices, SpanFits cs lo hi s.span)
    (hsorted : splices.Pairwise fun a b => b.span.hi ≤ a.span.lo) (hlo : Boundary cs lo) (hhi : Boundary cs hi)
    (hle : lo ≤ hi) : SameOutside cs lo hi (splices.foldl (fun text s => s.apply text) cs) := by
  induction splices generalizing cs hi with
  | nil => exact .refl hlo hhi hle
  | cons s rest ih =>
    obtain ⟨hs, hrest⟩ := List.pairwise_cons.1 hsorted
    have hfit := hfits s List.mem_cons_self
    have happly := Splice.apply_sameOutside hfit
    have hbefore (b : Splice) (hb : b ∈ rest) : SpanFits (s.apply cs) lo s.span.lo b.span :=
      Splice.fits_apply hfit (hfits b (List.mem_cons_of_mem _ hb)) (hs b hb)
    have hstart := happly.boundary hfit.boundary_lo (Nat.le_refl _)
    have h := ih hbefore hrest (happly.boundary hlo hfit.lo_le) hstart hfit.lo_le
    exact (happly.trans h).widen hlo hhi (Nat.le_refl _) hfit.hi_le

/-- the text of each splice is there after those that are carried out later -/
theorem infix_foldl_apply {splices : List Splice} (hfits : ∀ s ∈ splices, SpanFits cs lo hi s.span)
    (hsorted : splices.Pairwise fun a b => b.span.hi ≤ a.span.lo) (hlo : Boundary cs lo) {s : Splice}
    (hs : s ∈ splices) : s.text <:+: splices.foldl (fun text s => s.apply text) cs := by
  induction splices generalizing cs hi with
  | nil => cases hs
  | cons t rest ih =>
    obtain ⟨ht, hrest⟩ := List.pairwise_cons.1 hsorted
    have hfit := hfits t List.mem_cons_self
    have happly := Splice.apply_sameOutside hfit
    have hbefore (b : Splice) (hb : b ∈ rest) : SpanFits (t.apply cs) lo t.span.lo b.span :=
      Splice.fits_apply hfit (hfits b (List.mem_cons_of_mem _ hb)) (ht b hb)
    have hstart := happly.boundary hlo hfit.lo_le
    rcases List.mem_cons.1 hs with rfl | hs
    · -- the splices still to come end before its text
      obtain ⟨pre, old, post, hcut, hpre, hold⟩ := hfit.split
      have hplace := happly.boundary hfit.boundary_lo (Nat.le_refl _)
      have hsame := foldl_apply_sameOutside hbefore hrest hstart hplace hfit.lo_le
      have htext : s.apply cs = pre ++ (s.text ++ post) := hcut ▸ Splice.apply_append hpre hold
      rw [List.foldl_cons]
      rw [htext] at hsame ⊢
      exact hsame.infix_of_apart (.inr hpre.ge)
    · exact ih hbefore hrest hstart hs

/-- splices that lie apart, in the order they are carried out: each one ends before the last one starts -/
theorem pairwise_mergeSort_later {splices : List Splice} (hfits : ∀ s ∈ splices, s.span.lo ≤ s.span.hi)
    (hapart : splices.Pairwise Splice.Apart) :
    (splices.mergeSort Splice.later).Pairwise fun a b => b.span.hi ≤ a.span.lo := by
  have hperm := splices.mergeSort_perm Splice.later
  have hlater := List.pairwise_mergeSort Splice.later_trans Splice.later_total splices
  have hapart : (splices.mergeSort Splice.later).Pairwise Splice.Apart := hperm.symm.pairwise hapart fun h => h.symm
  refine (hlater.and hapart).imp_of_mem fun {a b} ha _ h => ?_
  exact h.2.le_of_later (hfits a (hperm.mem_iff.1 ha)) h.1

/-- **Splices stay in their window.** Splices between two boundaries, none of which reaches into another, leave all
text outside of these boundaries as it was. -/
theorem applySplices_sameOutside {splices : List Splice} (hfits : ∀ s ∈ splices, SpanFits cs lo hi s.span)
    (hapart : splices.Pairwise Splice.Apart) (hlo : Boundary cs lo) (hhi : Boundary cs hi) (hle : lo ≤ hi) :
    SameOutside cs lo hi (applySplices cs splices) := by
  have hfitsSorted (s : Splice) (hs : s ∈ splices.mergeSort Splice.later) : SpanFits cs lo hi s.span :=
    hfits s (List.mem_mergeSort.1 hs)
  exact foldl_apply_sameOutside hfitsSorted (pairwise_mergeSort_later (fun s hs => (hfits s hs).le) hapart) hlo hhi hle

/-- **Splices write their texts.** The new text holds the text of each splice. -/
theorem infix_applySplices {splices : List Splice} (hfits : ∀ s ∈ splices, SpanFits cs lo hi s.span)
    (hapart : splices.Pairwise Splice.Apart) (hlo : Boundary cs lo) {s : Splice} (hs : s ∈ splices) :
    s.text <:+: applySplices cs splices := by
  have hfitsSorted (s : Splice) (hs : s ∈ splices.mergeSort Splice.later) : SpanFits cs lo hi s.span :=
    hfits s (List.mem_mergeSort.1 hs)
  exact infix_foldl_apply hfitsSorted (pairwise_mergeSort_later (fun s hs => (hfits s hs).le) hapart) hlo
    (List.mem_mergeSort.2 hs)

@[simp] theorem applySplices_nil (cs : List Char) : applySplices cs [] = cs := by
  rw [applySplices, List.mergeSort_nil, List.foldl_nil]

@[simp] theorem applySplices_singleton (cs : List Char) (s : Splice) : applySplices cs [s] = s.apply cs := by
  rw [applySplices, List.mergeSort_singleton, List.foldl_cons, List.foldl_nil]

/-- of two splices in the order of the text, the second one is carried out first -/
theorem applySplices_pair {a b : Splice} (h : Splice.later a b = false) :
    applySplices cs [a, b] = a.apply (b.apply cs) := by
  have hsorted : [a, b].mergeSort Splice.later = [b, a] := by
    simp [List.mergeSort, List.MergeSort.Internal.splitInTwo, h]
  rw [applySplices, hsorted]
  rfl

/-- of two splices against the order of the text, the first one is carried out first -/
theorem applySplices_pair_later {a b : Splice} (h : Splice.later a b = true) :
    applySplices cs [a, b] = b.apply (a.apply cs) := by
  have hsorted : [a, b].mergeSort Splice.later = [a, b] := by
    simp [List.mergeSort, List.MergeSort.Internal.splitInTwo, h]
  rw [applySplices, hsorted]
  rfl

/-- where the text of a splice stands after another one apart from it: the text before it is as it was, or the text
after it is -/
theorem applySplices_pair_place {a b : Splice} (ha : SpanFits cs lo hi a.span) (hb : SpanFits cs lo hi b.span)
    (hapart : Splice.Apart a b) : ∃ before after, applySplices cs [a, b] = before ++ a.text ++ after ∧
      (before = takeBytes a.span.lo cs ∨ after = dropBytes a.span.hi cs) := by
  cases hlater : Splice.later a b with
  | false =>
    have hle : a.span.lo ≤ b.span.lo := by
      simp only [Splice.later, Bool.or_eq_false_iff, decide_eq_false_iff_not] at hlater
      omega
    rw [applySplices_pair hlater]
    exact ⟨_, _, rfl, .inl ((Splice.apply_sameOutside hb).takeBytes_eq ha.boundary_lo hle)⟩
  | true =>
    have hle := hapart.le_of_later ha.le hlater
    obtain ⟨pre, old, post, rfl, hlo, hhi⟩ := ha.split
    obtain ⟨p, o, q, hcut, hblo, hbhi⟩ := hb.split
    have hpre : (p ++ o) ++ q = pre ++ (old ++ post) := by rw [List.append_assoc, hcut]
    obtain ⟨between, rfl⟩ := prefix_of_byteLen_le hpre (by omega)
    have hpost : dropBytes a.span.hi (p ++ o ++ between ++ (old ++ post)) = post := by
      rw [← hhi, ← List.append_assoc, dropBytes_append]
    refine ⟨p ++ b.text ++ between, post, ?_, .inr hpost.symm⟩
    have happly (after : List Char) : b.apply (p ++ (o ++ after)) = p ++ (b.text ++ after) :=
      Splice.apply_append hblo hbhi
    rw [applySplices_pair_later hlater, Splice.apply_append hlo hhi]
    simpa using happly (between ++ (a.text ++ post))

end TsxWorkbench.Text
