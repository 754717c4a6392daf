/-
Cutting a text at byte offsets. A boundary of a text is an offset between two of its characters, or at an end of it.

- `Boundary.split`: two boundaries cut a text into three pieces, which `takeBytes`, `sliceBytes` and `dropBytes` give.
- `Solid`: a boundary just after a character that is not blank. Blanks before a later place reach back no further
  (`Solid.le_trimEnd`).
-/
import TsxWorkbench.Proofs.Text.Blank
import TsxWorkbench.Text.Position

namespace TsxWorkbench.Text

/-! ## Lengths -/

@[simp] theorem byteLen_nil : byteLen [] = 0 := rfl

@[simp] theorem byteLen_cons (c : Char) (cs : List Char) : byteLen (c :: cs) = c.utf8Size + byteLen cs := rfl

@[simp] theorem byteLen_append (as bs : List Char) : byteLen (as ++ bs) = byteLen as + byteLen bs := by
  induction as with
  | nil => simp
  | cons c cs ih => simp [ih, Nat.add_assoc]

theorem byteLen_eq_zero {cs : List Char} (h : byteLen cs = 0) : cs = [] := by
  cases cs with
  | nil => rfl
  | cons c cs =>
    have := c.utf8Size_pos
    simp only [byteLen_cons] at h
    omega

/-- of two beginnings of a text, the one of fewer bytes is a beginning of the other -/
theorem prefix_of_byteLen_le {as bs xs ys : List Char} (h : as ++ xs = bs ++ ys) (hle : byteLen as ≤ byteLen bs) :
    ∃ ms, bs = as ++ ms := by
  rcases List.append_eq_append_iff.1 h with ⟨ms, hb, -⟩ | ⟨ms, ha, -⟩
  · exact ⟨ms, hb⟩
  · rw [ha, byteLen_append] at hle
    obtain rfl : ms = [] := byteLen_eq_zero (by omega)
    exact ⟨[], by simpa using ha.symm⟩

/-- beginnings of a text with the same number of bytes are the same -/
theorem append_inj_of_byteLen {as bs xs ys : List Char} (h : as ++ xs = bs ++ ys) (hlen : byteLen as = byteLen bs) :
    as = bs ∧ xs = ys := by
  obtain ⟨ms, rfl⟩ := prefix_of_byteLen_le h hlen.le
  rw [byteLen_append] at hlen
  obtain rfl : ms = [] := byteLen_eq_zero (by omega)
  exact ⟨(List.append_nil as).symm, by simpa using h⟩

/-! ## Cutting -/

theorem takeBytes_append (pre post : List Char) : takeBytes (byteLen pre) (pre ++ post) = pre := by
  induction pre with
  | nil =>
    cases post with
    | nil => rfl
    | cons c cs =>
      have := c.utf8Size_pos
      simp only [byteLen_nil, List.nil_append, takeBytes]
      rw [if_neg (by omega)]
  | cons c cs ih =>
    simp only [byteLen_cons, List.cons_append, takeBytes]
    rw [if_pos (by omega), Nat.add_sub_cancel_left, ih]

theorem dropBytes_append (pre post : List Char) : dropBytes (byteLen pre) (pre ++ post) = post := by
  induction pre with
  | nil => cases post <;> simp [dropBytes]
  | cons c cs ih =>
    have := c.utf8Size_pos
    simp only [byteLen_cons, List.cons_append, dropBytes]
    rw [if_neg (by omega), Nat.add_sub_cancel_left, ih]

/-- an offset between two characters of a text, or at an end of it -/
def Boundary (cs : List Char) (n : Nat) : Prop := ∃ pre post, cs = pre ++ post ∧ byteLen pre = n

theorem boundary_append (pre post : List Char) : Boundary (pre ++ post) (byteLen pre) := ⟨pre, post, rfl, rfl⟩

namespace Boundary

variable {cs : List Char} {n lo hi : Nat}

/-- the two pieces of a text at a boundary -/
theorem take_append_drop (h : Boundary cs n) : takeBytes n cs ++ dropBytes n cs = cs := by
  obtain ⟨pre, post, rfl, rfl⟩ := h
  rw [takeBytes_append, dropBytes_append]

theorem byteLen_take (h : Boundary cs n) : byteLen (takeBytes n cs) = n := by
  obtain ⟨pre, post, rfl, rfl⟩ := h
  rw [takeBytes_append]

/-- two boundaries cut a text into three pieces -/
theorem split (hlo : Boundary cs lo) (hhi : Boundary cs hi) (hle : lo ≤ hi) :
    ∃ pre mid post, cs = pre ++ (mid ++ post) ∧ byteLen pre = lo ∧ byteLen (pre ++ mid) = hi := by
  obtain ⟨pre, rest, rfl, rfl⟩ := hlo
  obtain ⟨full, post, h, rfl⟩ := hhi
  obtain ⟨mid, rfl⟩ := prefix_of_byteLen_le h hle
  rw [List.append_assoc, List.append_cancel_left_eq] at h
  exact ⟨pre, mid, post, by rw [h], rfl, rfl⟩

end Boundary

theorem sliceBytes_append (pre mid post : List Char) :
    sliceBytes (byteLen pre) (byteLen (pre ++ mid)) (pre ++ (mid ++ post)) = mid := by
  rw [sliceBytes, dropBytes_append, byteLen_append, Nat.add_sub_cancel_left, takeBytes_append]

/-! ## Ranges -/

/-- a range between two boundaries of a text, inside a window -/
structure SpanFits (cs : List Char) (lo hi : Nat) (s : Span) : Prop where
  lo_le : lo ≤ s.lo
  le : s.lo ≤ s.hi
  hi_le : s.hi ≤ hi
  boundary_lo : Boundary cs s.lo
  boundary_hi : Boundary cs s.hi

theorem SpanFits.mono {cs : List Char} {lo hi lo' hi' : Nat} {s : Span} (h : SpanFits cs lo hi s) (hlo : lo' ≤ lo)
    (hhi : hi ≤ hi') : SpanFits cs lo' hi' s :=
  ⟨hlo.trans h.lo_le, h.le, h.hi_le.trans hhi, h.boundary_lo, h.boundary_hi⟩

theorem Boundary.le_byteLen {cs : List Char} {n : Nat} (h : Boundary cs n) : n ≤ byteLen cs := by
  obtain ⟨pre, post, rfl, rfl⟩ := h
  rw [byteLen_append]
  exact Nat.le_add_right _ _

/-- a range between boundaries of a text is not cut down to it -/
theorem SpanFits.clamp {cs : List Char} {lo hi : Nat} {s : Span} (h : SpanFits cs lo hi s) :
    s.clamp (byteLen cs) = s := by
  have hlo : min s.lo (byteLen cs) = s.lo := Nat.min_eq_left h.boundary_lo.le_byteLen
  have hhi : min s.hi (byteLen cs) = s.hi := Nat.min_eq_left h.boundary_hi.le_byteLen
  rw [Span.clamp, hlo, hhi, Nat.max_eq_right h.le]

theorem add_byteLen_sliceBytes {cs : List Char} {lo hi : Nat} (hlo : Boundary cs lo) (hhi : Boundary cs hi)
    (hle : lo ≤ hi) : lo + byteLen (sliceBytes lo hi cs) = hi := by
  obtain ⟨pre, mid, post, rfl, rfl, rfl⟩ := hlo.split hhi hle
  rw [sliceBytes_append, byteLen_append]

/-- a piece of a text is cut in two at a boundary inside it -/
theorem sliceBytes_split {cs : List Char} {lo mid hi : Nat} (hlo : Boundary cs lo) (hmid : Boundary cs mid)
    (hhi : Boundary cs hi) (hle : lo ≤ mid) (hge : mid ≤ hi) :
    sliceBytes lo hi cs = sliceBytes lo mid cs ++ sliceBytes mid hi cs := by
  obtain ⟨pre, before, rest, rfl, rfl, rfl⟩ := hlo.split hmid hle
  obtain ⟨p, after, post, hcut, hp, rfl⟩ := hmid.split hhi hge
  rw [← List.append_assoc] at hcut
  obtain ⟨rfl, rfl⟩ := append_inj_of_byteLen hcut hp.symm
  have hwhole := sliceBytes_append pre (before ++ after) post
  have hfirst := sliceBytes_append pre before (after ++ post)
  have hsecond := sliceBytes_append (pre ++ before) after post
  simp only [List.append_assoc] at hwhole hfirst hsecond ⊢
  rw [hwhole, hfirst, hsecond]

/-- a range of a text stands in it -/
theorem SpanFits.infix_slice {cs : List Char} {lo hi : Nat} {s : Span} (h : SpanFits cs lo hi s) :
    s.slice cs <:+: cs := by
  obtain ⟨pre, mid, post, rfl, hlo, hhi⟩ := h.boundary_lo.split h.boundary_hi h.le
  rw [Span.slice, ← hlo, ← hhi, sliceBytes_append]
  exact ⟨pre, post, List.append_assoc _ _ _⟩

/-- a piece of the text of a range is the text of a range in it -/
theorem SpanFits.cut {cs before mid after : List Char} {lo hi : Nat} {s : Span} (h : SpanFits cs lo hi s)
    (hslice : s.slice cs = before ++ (mid ++ after)) :
    SpanFits cs s.lo s.hi ⟨s.lo + byteLen before, s.lo + byteLen before + byteLen mid⟩ ∧
      (⟨s.lo + byteLen before, s.lo + byteLen before + byteLen mid⟩ : Span).slice cs = mid ∧
      s.lo + byteLen before + byteLen mid + byteLen after = s.hi := by
  obtain ⟨pre, raw, post, rfl, hlo, hhi⟩ := h.boundary_lo.split h.boundary_hi h.le
  rw [Span.slice, ← hlo, ← hhi, sliceBytes_append] at hslice
  subst hslice
  have hpiece := sliceBytes_append (pre ++ before) mid (after ++ post)
  have hstart := boundary_append (pre ++ before) (mid ++ after ++ post)
  have hstop := boundary_append (pre ++ before ++ mid) (after ++ post)
  simp only [List.append_assoc, byteLen_append] at hpiece hstart hstop hhi ⊢
  rw [← hlo, Nat.add_assoc]
  refine ⟨⟨Nat.le_add_right _ _, ?_, ?_, hstart, hstop⟩, hpiece, by omega⟩
  · exact Nat.add_le_add_left (Nat.le_add_right _ _) _
  · dsimp only
    omega

/-! ## Solid ends -/

/-- an offset just after a character that is not blank -/
def Solid (cs : List Char) (n : Nat) : Prop :=
  ∃ pre c post, cs = pre ++ [c] ++ post ∧ isBlank c = false ∧ byteLen (pre ++ [c]) = n

namespace Solid

variable {cs : List Char} {n lo : Nat}

theorem boundary (h : Solid cs n) : Boundary cs n := by
  obtain ⟨pre, c, post, rfl, -, rfl⟩ := h
  exact boundary_append _ post

/-- the blanks before a place reach back no further than to a solid end before it -/
theorem le_trimEnd (h : Solid cs n) (hlo : Boundary cs lo) (hle : n ≤ lo) :
    n ≤ byteLen (trimEnd (takeBytes lo cs)) := by
  obtain ⟨pre, c, post, rfl, hc, rfl⟩ := h
  obtain ⟨full, rest, hfull, rfl⟩ := hlo
  obtain ⟨mid, rfl⟩ := prefix_of_byteLen_le hfull hle
  rw [hfull, takeBytes_append, trimEnd_append_of_not_isBlank pre hc, byteLen_append (pre ++ [c])]
  exact Nat.le_add_right _ _

end Solid

end TsxWorkbench.Text
