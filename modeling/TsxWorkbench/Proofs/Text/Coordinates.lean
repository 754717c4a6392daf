/-
Byte offsets and positions are two names for the same places of a text.

- `offset?_eq_some_iff`: the places of a text, from both sides. A line with k of its characters before the place and all
  earlier lines, each with its line feed, lead to line and column on one side and to the bytes passed on the other.
- `contains_rangeOf_iff`: a range of positions holds the places whose offsets lie in the range of bytes.
- `coordinates_inverse`: positions grow with the offsets, and `offset?` is the inverse of `position`.

The line feed itself is the last place of its line, one column past the line's text; the place after it starts the next
line. So each boundary of a text has one position only, also at the end of an empty line and at the end of the text.
-/
import TsxWorkbench.Proofs.Text.Lines
import TsxWorkbench.Proofs.Text.Position

namespace TsxWorkbench.Text

variable {cs : List Char} {p : Position} {n : Nat}

/-! ## Ended lines -/

/-- lines with the line feeds that end them -/
def endedText (lines : List (List Char)) : List Char := lines.flatMap (· ++ ['\n'])

theorem joinLines_append_cons (init : List (List Char)) (line : List Char) (rest : List (List Char)) :
    joinLines (init ++ line :: rest) = endedText init ++ joinLines (line :: rest) := by
  induction init with
  | nil => rfl
  | cons first init ih =>
    rw [List.cons_append, joinLines_cons (by simp), ih]
    simp [endedText]

/-- a text up to its n-th line, that line, and what follows it -/
theorem exists_append_of_splitLines {init rest : List (List Char)} {line : List Char}
    (h : splitLines cs = init ++ line :: rest) : ∃ post, cs = endedText init ++ (line ++ post) := by
  rw [← joinLines_splitLines cs, h, joinLines_append_cons]
  rcases eq_or_ne rest [] with rfl | hrest
  · exact ⟨[], by simp [joinLines]⟩
  · exact ⟨'\n' :: joinLines rest, by rw [joinLines_cons hrest]⟩

/-- ended lines lead to the start of a later line -/
theorem advancePosition_endedText {lines : List (List Char)} (h : ∀ line ∈ lines, '\n' ∉ line) (first : Nat) :
    advancePosition ⟨first, 1⟩ (endedText lines) = ⟨first + lines.length, 1⟩ := by
  induction lines generalizing first with
  | nil => rfl
  | cons line lines ih =>
    have hline : advancePosition ⟨first, 1⟩ (line ++ ['\n']) = ⟨first + 1, 1⟩ := by
      rw [advancePosition_append, advancePosition_of_notMem (h line List.mem_cons_self)]
      rfl
    rw [endedText, List.flatMap_cons, advancePosition_append, hline, ← endedText,
      ih (fun l hl => h l (List.mem_cons_of_mem _ hl)), List.length_cons, Nat.add_assoc, Nat.add_comm 1]

theorem lineStart_eq {init rest : List (List Char)} (h : splitLines cs = init ++ rest) :
    lineStart cs (init.length + 1) = byteLen (endedText init) := by
  rw [lineStart, h, Nat.add_sub_cancel, List.take_left]
  clear h
  induction init with
  | nil => rfl
  | cons line init ih =>
    have hfeed : ('\n').utf8Size = 1 := rfl
    rw [List.foldr_cons, ih, endedText, endedText, List.flatMap_cons, byteLen_append, byteLen_append, byteLen_cons,
      hfeed, byteLen_nil]

/-! ## Places -/

/-- **Places.** A position has an offset if and only if it lies on a line of the text, up to the line's end, and the
offset counts the bytes of the lines before it and of the characters before it on its line. -/
theorem offset?_eq_some_iff : offset? cs p = some n ↔ ∃ init line rest k, splitLines cs = init ++ line :: rest ∧
    k ≤ line.length ∧ p = ⟨init.length + 1, k + 1⟩ ∧ n = byteLen (endedText init ++ line.take k) := by
  constructor
  · intro h
    unfold offset? at h
    split at h
    · cases h
    · rename_i line hline
      unfold lineText? at hline
      split_ifs at h hline with hzero hcolumn
      cases h
      obtain ⟨hlt, hget⟩ := List.getElem?_eq_some_iff.1 hline
      obtain ⟨init, rest, hsplit, hlen⟩ :
          ∃ init rest, splitLines cs = init ++ line :: rest ∧ init.length = p.line - 1 :=
        ⟨(splitLines cs).take (p.line - 1), (splitLines cs).drop (p.line - 1 + 1),
          by rw [← hget, List.getElem_cons_drop, List.take_append_drop], by rw [List.length_take]; omega⟩
      have hline : p.line = init.length + 1 := by omega
      refine ⟨init, line, rest, p.column - 1, hsplit, by omega, ?_, ?_⟩
      · rw [← hline, Nat.sub_add_cancel (by omega)]
      · rw [byteLen_append, hline, lineStart_eq hsplit]
  · rintro ⟨init, line, rest, k, hsplit, hk, rfl, rfl⟩
    have hline : lineText? cs (init.length + 1) = some line := by
      rw [lineText?, if_neg (Nat.succ_ne_zero _), hsplit, Nat.add_sub_cancel,
        List.getElem?_append_right (Nat.le_refl _), Nat.sub_self, List.getElem?_cons_zero]
    unfold offset?
    rw [hline]
    dsimp only
    rw [if_neg (by omega), Nat.add_sub_cancel, lineStart_eq hsplit, byteLen_append]

/-- reading up to a place leads to its position -/
theorem position_place {init rest : List (List Char)} {line : List Char} {k : Nat}
    (hsplit : splitLines cs = init ++ line :: rest) (hk : k ≤ line.length) :
    Boundary cs (byteLen (endedText init ++ line.take k)) ∧
      position cs (byteLen (endedText init ++ line.take k)) = ⟨init.length + 1, k + 1⟩ := by
  obtain ⟨post, hcs⟩ := exists_append_of_splitLines hsplit
  have hcut : cs = (endedText init ++ line.take k) ++ (line.drop k ++ post) := by
    rw [hcs, List.append_assoc, ← List.append_assoc (line.take k), List.take_append_drop]
  have hlines (l : List Char) (hl : l ∈ splitLines cs) : '\n' ∉ l := fun hc => (mem_of_mem_splitLines hl hc).2 rfl
  rw [hsplit] at hlines
  have hinit (l : List Char) (hl : l ∈ init) : '\n' ∉ l := hlines l (List.mem_append_left _ hl)
  have hstart : '\n' ∉ line.take k := fun hc => hlines line List.mem_append_cons_self (List.mem_of_mem_take hc)
  constructor
  · rw [hcut]
    exact boundary_append _ _
  · rw [hcut, position_append, advancePosition_append, advancePosition_endedText hinit,
      advancePosition_of_notMem hstart, List.length_take, Nat.min_eq_left hk, Nat.add_comm 1 init.length,
      Nat.add_comm 1 k]

/-- **Back.** What has an offset is the position of that offset, and the offset lies between two characters. -/
theorem position_of_offset? (h : offset? cs p = some n) : Boundary cs n ∧ position cs n = p := by
  obtain ⟨init, line, rest, k, hsplit, hk, rfl, rfl⟩ := offset?_eq_some_iff.1 h
  exact position_place hsplit hk

/-- **Forth.** Each boundary is found again from its position. -/
theorem offset?_position (h : Boundary cs n) : offset? cs (position cs n) = some n := by
  obtain ⟨pre, post, rfl, rfl⟩ := h
  -- the boundary cuts a line in two: the last line of the text before it and the first one of the text after it
  obtain ⟨init, last, first, rest, hpre, -, hsplit⟩ := splitLines_append pre post
  have hbytes : byteLen pre = byteLen (endedText init ++ (last ++ first).take last.length) := by
    conv_lhs => rw [← joinLines_splitLines pre, hpre, joinLines_append_cons]
    simp [joinLines]
  have hlast : last.length ≤ (last ++ first).length := by simp
  refine offset?_eq_some_iff.2 ⟨init, last ++ first, rest, last.length, hsplit, hlast, ?_, hbytes⟩
  rw [hbytes]
  exact (position_place hsplit hlast).2

/-! ## Order -/

/-- positions are in the order of the offsets -/
theorem position_before_iff {m : Nat} (hm : Boundary cs m) (hn : Boundary cs n) :
    (position cs m).before (position cs n) = true ↔ m < n := by
  refine ⟨fun h => ?_, position_before hm hn⟩
  by_contra hle
  have hback := position_atOrBefore hn hm (Nat.not_lt.1 hle)
  rw [Position.atOrBefore, h] at hback
  cases hback

/-- **Ranges.** A range of positions holds a place if the range of bytes holds its offset. -/
theorem contains_rangeOf_iff {b : Span} (hlo : Boundary cs b.lo) (hhi : Boundary cs b.hi) (h : offset? cs p = some n) :
    (rangeOf cs b).contains p = true ↔ b.lo ≤ n ∧ n < b.hi := by
  obtain ⟨hn, rfl⟩ := position_of_offset? h
  have hstart : (position cs b.lo).atOrBefore (position cs n) = true ↔ b.lo ≤ n := by
    rw [Position.atOrBefore, Bool.not_eq_true', ← Bool.not_eq_true, position_before_iff hn hlo, Nat.not_lt]
  rw [TextRange.contains, Bool.and_eq_true]
  exact and_congr hstart (position_before_iff hn hhi)

/-- **Coordinates.** Positions grow strictly with the offsets of the boundaries of a text, they are just the positions
that have an offset, and the two functions are inverse to each other; so ranges of positions hold what the ranges of
bytes hold. -/
theorem coordinates_inverse (cs : List Char) :
    (∀ m n, Boundary cs m → Boundary cs n → ((position cs m).before (position cs n) = true ↔ m < n)) ∧
    (∀ n, Boundary cs n → offset? cs (position cs n) = some n) ∧
    (∀ p n, offset? cs p = some n → Boundary cs n ∧ position cs n = p) ∧
    ∀ (b : Span) (p : Position) (n : Nat), Boundary cs b.lo → Boundary cs b.hi → offset? cs p = some n →
      ((rangeOf cs b).contains p = true ↔ b.lo ≤ n ∧ n < b.hi) :=
  ⟨fun _ _ => position_before_iff, fun _ => offset?_position, fun _ _ => position_of_offset?,
    fun _ _ _ => contains_rangeOf_iff⟩

/-- an accented letter, an empty line and a last line without a line feed -/
def accented : List Char := "é\n\nx".toList

theorem coordinates_inverse_accented : Boundary accented 2 ∧ offset? accented (position accented 2) = some 2 ∧
    ((rangeOf accented ⟨0, 3⟩).contains (position accented 2) = true ↔ 0 ≤ 2 ∧ 2 < 3) := by
  have hstart : Boundary accented 0 := ⟨[], accented, rfl, rfl⟩
  have hletter : Boundary accented 2 := ⟨['é'], "\n\nx".toList, rfl, rfl⟩
  have hfeed : Boundary accented 3 := ⟨['é', '\n'], "\nx".toList, rfl, rfl⟩
  obtain ⟨-, hforth, -, hranges⟩ := coordinates_inverse accented
  exact ⟨hletter, hforth 2 hletter, hranges ⟨0, 3⟩ _ 2 hstart hfeed (hforth 2 hletter)⟩

end TsxWorkbench.Text
