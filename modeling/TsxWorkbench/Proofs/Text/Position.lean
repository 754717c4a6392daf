/-
Positions of places that are given by the text before them. A text without line feeds moves a position along its line
(`advancePosition_of_notMem`); after a line feed the column starts over (`advancePosition_newline`). Later places have
later positions (`position_before`).
-/
import TsxWorkbench.Proofs.Text.Bytes

namespace TsxWorkbench.Text

theorem position_append (pre post : List Char) : position (pre ++ post) (byteLen pre) = advancePosition ⟨1, 1⟩ pre := by
  rw [position, takeBytes_append]

theorem advancePosition_append (p : Position) (as bs : List Char) :
    advancePosition p (as ++ bs) = advancePosition (advancePosition p as) bs := List.foldl_append

/-- a text on one line moves a position along the line -/
theorem advancePosition_of_notMem {cs : List Char} (h : '\n' ∉ cs) (p : Position) :
    advancePosition p cs = ⟨p.line, p.column + cs.length⟩ := by
  induction cs generalizing p with
  | nil => rfl
  | cons c cs ih =>
    rw [List.mem_cons, not_or] at h
    have hstep : advancePosition p (c :: cs) = advancePosition ⟨p.line, p.column + 1⟩ cs := by
      rw [advancePosition, List.foldl_cons, if_neg (Ne.symm h.1)]
      rfl
    rw [hstep, ih h.2, List.length_cons, Nat.add_comm cs.length 1, ← Nat.add_assoc]

/-- after a line feed, a text on one line leads to a place on the next line -/
theorem advancePosition_newline {cs : List Char} (h : '\n' ∉ cs) (p : Position) :
    advancePosition p ('\n' :: cs) = ⟨p.line + 1, cs.length + 1⟩ := by
  rw [show advancePosition p ('\n' :: cs) = advancePosition ⟨p.line + 1, 1⟩ cs from rfl, advancePosition_of_notMem h,
    Nat.add_comm cs.length]

/-- a text with line feeds has a last one -/
theorem exists_last_newline {cs : List Char} (h : '\n' ∈ cs) : ∃ as bs, cs = as ++ '\n' :: bs ∧ '\n' ∉ bs := by
  obtain ⟨bs, as, hcs, hbs⟩ := List.eq_append_cons_of_mem (List.mem_reverse.2 h)
  refine ⟨as.reverse, bs.reverse, ?_, fun hmem => hbs (List.mem_reverse.1 hmem)⟩
  rw [← List.reverse_reverse cs, hcs]
  simp

/-! ## Reading order -/

theorem Position.before_iff {p q : Position} :
    p.before q = true ↔ p.line < q.line ∨ p.line = q.line ∧ p.column < q.column := by
  simp [Position.before]

theorem Position.atOrBefore_iff {p q : Position} :
    p.atOrBefore q = true ↔ p.line < q.line ∨ p.line = q.line ∧ p.column ≤ q.column := by
  rw [Position.atOrBefore, Bool.not_eq_true', ← Bool.not_eq_true, Position.before_iff]
  omega

/-- reading goes forward -/
theorem before_advancePosition (p : Position) {cs : List Char} (h : cs ≠ []) :
    p.before (advancePosition p cs) = true := by
  induction cs generalizing p with
  | nil => exact absurd rfl h
  | cons c cs ih =>
    obtain ⟨q, hq, hstep⟩ : ∃ q : Position, p.before q = true ∧ advancePosition p (c :: cs) = advancePosition q cs := by
      by_cases hc : c = '\n'
      · exact ⟨⟨p.line + 1, 1⟩, by simp [Position.before], by simp [advancePosition, hc]⟩
      · exact ⟨⟨p.line, p.column + 1⟩, by simp [Position.before], by simp [advancePosition, hc]⟩
    rw [hstep]
    rcases eq_or_ne cs [] with rfl | hne
    · exact hq
    · have hrest := ih q hne
      rw [Position.before_iff] at hq hrest ⊢
      omega

/-- a later boundary has a later position -/
theorem position_before {cs : List Char} {lo hi : Nat} (hlo : Boundary cs lo) (hhi : Boundary cs hi) (h : lo < hi) :
    (position cs lo).before (position cs hi) = true := by
  obtain ⟨pre, mid, post, rfl, rfl, rfl⟩ := hlo.split hhi h.le
  have hmid : mid ≠ [] := by
    rintro rfl
    rw [List.append_nil] at h
    exact Nat.lt_irrefl _ h
  rw [position_append, ← List.append_assoc, position_append, advancePosition_append]
  exact before_advancePosition _ hmid

theorem position_atOrBefore {cs : List Char} {lo hi : Nat} (hlo : Boundary cs lo) (hhi : Boundary cs hi)
    (h : lo ≤ hi) : (position cs lo).atOrBefore (position cs hi) = true := by
  rcases h.eq_or_lt with rfl | hlt
  · rw [Position.atOrBefore_iff]
    omega
  · have hbefore := position_before hlo hhi hlt
    rw [Position.before_iff] at hbefore
    rw [Position.atOrBefore_iff]
    omega

/-- boundaries are told apart by their positions -/
theorem eq_of_position {cs : List Char} {m n : Nat} (hm : Boundary cs m) (hn : Boundary cs n)
    (h : position cs m = position cs n) : m = n := by
  rcases Nat.lt_trichotomy m n with hlt | heq | hlt
  · have hbefore := position_before hm hn hlt
    rw [h, Position.before_iff] at hbefore
    omega
  · exact heq
  · have hbefore := position_before hn hm hlt
    rw [h, Position.before_iff] at hbefore
    omega

end TsxWorkbench.Text
