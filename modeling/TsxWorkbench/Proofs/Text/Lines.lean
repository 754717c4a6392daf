/-
Lines of a text, and what becomes of them when the blanks at its end are cut off.

- `splitLines_append`: the lines of two texts one after the other; the last line of the first and the first line of
  the second become one.
- `splitLines_joinLines`: lines without line feeds are what their joined text is split into.
- `blockLines_trimEnd`: a line of a trimmed text is a line of the text, up to blanks at its end. Trimming may take
  whole lines away, but only blank ones (`lt_length_blockLines_trimEnd`).
-/
import TsxWorkbench.Proofs.Text.Blank
import TsxWorkbench.Files.Scan

namespace TsxWorkbench.Text

/-! ## Splitting and joining -/

theorem splitLines_cons_of_ne {c : Char} {cs line : List Char} {rest : List (List Char)} (hc : c ≠ '\n')
    (hs : splitLines cs = line :: rest) : splitLines (c :: cs) = (c :: line) :: rest := by
  rw [splitLines.eq_3 c cs (by simpa using hc), hs]

theorem exists_splitLines_eq_cons (cs : List Char) : ∃ line rest, splitLines cs = line :: rest :=
  List.exists_cons_of_ne_nil (splitLines_ne_nil cs)

theorem splitLines_append (as bs : List Char) :
    ∃ init last first rest, splitLines as = init ++ [last] ∧ splitLines bs = first :: rest ∧
      splitLines (as ++ bs) = init ++ (last ++ first) :: rest := by
  obtain ⟨first, rest, hb⟩ := exists_splitLines_eq_cons bs
  induction as with
  | nil => exact ⟨[], [], first, rest, rfl, hb, hb⟩
  | cons c cs ih =>
    obtain ⟨init, last, first', rest', hinit, hb', happ⟩ := ih
    by_cases hc : c = '\n'
    · subst hc
      exact ⟨[] :: init, last, first', rest', by simp [splitLines, hinit], hb', by simp [splitLines, happ]⟩
    · cases init with
      | nil =>
        exact ⟨[], c :: last, first', rest', splitLines_cons_of_ne hc hinit, hb', splitLines_cons_of_ne hc happ⟩
      | cons line init =>
        exact ⟨(c :: line) :: init, last, first', rest', splitLines_cons_of_ne hc hinit, hb',
          splitLines_cons_of_ne hc happ⟩

/-- a line holds characters of its text, and no line feed -/
theorem mem_of_mem_splitLines {cs line : List Char} {c : Char} (h : line ∈ splitLines cs) (hc : c ∈ line) :
    c ∈ cs ∧ c ≠ '\n' := by
  induction cs generalizing line with
  | nil => simp [splitLines] at h; simp [h] at hc
  | cons d cs ih =>
    obtain ⟨first, rest, hs⟩ := exists_splitLines_eq_cons cs
    by_cases hd : d = '\n'
    · subst hd
      rcases List.mem_cons.1 (by simpa only [splitLines] using h) with rfl | h
      · simp at hc
      · exact ⟨List.mem_cons_of_mem _ (ih h hc).1, (ih h hc).2⟩
    · rw [splitLines_cons_of_ne hd hs, List.mem_cons] at h
      rcases h with rfl | h
      · rcases List.mem_cons.1 hc with rfl | hc
        · exact ⟨List.mem_cons_self, hd⟩
        · have := ih (hs ▸ List.mem_cons_self) hc
          exact ⟨List.mem_cons_of_mem _ this.1, this.2⟩
      · have := ih (hs ▸ List.mem_cons_of_mem _ h) hc
        exact ⟨List.mem_cons_of_mem _ this.1, this.2⟩

theorem splitLines_of_newline_notMem {cs : List Char} (h : '\n' ∉ cs) : splitLines cs = [cs] := by
  induction cs with
  | nil => rfl
  | cons c cs ih =>
    rw [List.mem_cons, not_or] at h
    exact splitLines_cons_of_ne (Ne.symm h.1) (ih h.2)

theorem joinLines_cons {line : List Char} {rest : List (List Char)} (h : rest ≠ []) :
    joinLines (line :: rest) = line ++ '\n' :: joinLines rest := by
  cases rest with
  | nil => exact absurd rfl h
  | cons next rest => simp [joinLines, List.intercalate_cons_cons]

theorem splitLines_joinLines {lines : List (List Char)} (hne : lines ≠ []) (h : ∀ line ∈ lines, '\n' ∉ line) :
    splitLines (joinLines lines) = lines := by
  induction lines with
  | nil => exact absurd rfl hne
  | cons line rest ih =>
    have hline := splitLines_of_newline_notMem (h line List.mem_cons_self)
    rcases eq_or_ne rest [] with rfl | hrest
    · simpa [joinLines] using hline
    · have hsplit := ih hrest fun l hl => h l (List.mem_cons_of_mem _ hl)
      obtain ⟨init, last, first, more, h1, h2, h3⟩ := splitLines_append line ('\n' :: joinLines rest)
      rw [hline] at h1
      obtain ⟨rfl, rfl⟩ : init = [] ∧ last = line := by
        cases init with
        | nil => simpa using h1.symm
        | cons => simp at h1
      simp only [splitLines, hsplit, List.cons.injEq] at h2
      rw [joinLines_cons hrest, h3, ← h2.1, ← h2.2]
      simp

/-- a text is its lines joined again -/
theorem joinLines_splitLines (cs : List Char) : joinLines (splitLines cs) = cs := by
  induction cs with
  | nil => rfl
  | cons c cs ih =>
    by_cases hc : c = '\n'
    · subst hc
      rw [splitLines, joinLines_cons (splitLines_ne_nil cs), ih, List.nil_append]
    · obtain ⟨line, rest, hs⟩ := exists_splitLines_eq_cons cs
      rw [splitLines_cons_of_ne hc hs]
      rw [hs] at ih
      cases rest with
      | nil => simpa [joinLines] using ih
      | cons next rest =>
        rw [joinLines_cons (List.cons_ne_nil _ _)] at ih ⊢
        rw [List.cons_append, ih]

end TsxWorkbench.Text

namespace TsxWorkbench.Files

open Text

/-! ## Lines of a block -/

theorem blockLines_of_ne_nil {cs : List Char} (h : cs ≠ []) : blockLines cs = splitLines cs := by
  simp [blockLines, h]

theorem newline_notMem_of_mem_blockLines {cs line : List Char} (h : line ∈ blockLines cs) : '\n' ∉ line := by
  unfold blockLines at h
  split at h
  · simp at h
  · exact fun hc => (mem_of_mem_splitLines h hc).2 rfl

theorem joinLines_blockLines (cs : List Char) : joinLines (blockLines cs) = cs := by
  rcases eq_or_ne cs [] with rfl | hne
  · rfl
  · rw [blockLines_of_ne_nil hne, joinLines_splitLines]

/-- a list whose items all stand for items at the same places of another is no longer than the other -/
theorem length_le_of_getElem? {α β : Type} {l : List α} {m : List β}
    (h : ∀ (i : Nat) a, l[i]? = some a → ∃ b, m[i]? = some b) : l.length ≤ m.length := by
  by_contra hlt
  have hlast : l.length - 1 < l.length := by omega
  obtain ⟨b, hb⟩ := h _ _ (List.getElem?_eq_getElem hlast)
  have hbound := (List.getElem?_eq_some_iff.1 hb).1
  omega

/-- a line of a trimmed text is a line of the text, up to blanks at its end -/
theorem blockLines_trimEnd {cs line : List Char} {i : Nat} (h : (blockLines (trimEnd cs))[i]? = some line) :
    ∃ full, (splitLines cs)[i]? = some full ∧ trimEnd line = trimEnd full := by
  rcases eq_or_ne (trimEnd cs) [] with hnil | hne
  · simp [blockLines, hnil] at h
  rw [blockLines_of_ne_nil hne] at h
  obtain ⟨ws, hcs, hws⟩ := exists_trimEnd_append cs
  obtain ⟨init, last, first, rest, h1, h2, h3⟩ := splitLines_append (trimEnd cs) ws
  rw [hcs, h3]
  rw [h1] at h
  rcases Nat.lt_trichotomy i init.length with hi | rfl | hi
  · -- a line before the last one is not touched
    rw [List.getElem?_append_left hi] at h ⊢
    exact ⟨line, h, rfl⟩
  · -- the last line goes on with blanks
    obtain rfl : last = line := by simpa using h
    refine ⟨last ++ first, by simp, (trimEnd_append_blanks _ fun c hc => ?_).symm⟩
    exact hws c (mem_of_mem_splitLines (h2 ▸ List.mem_cons_self) hc).1
  · rw [List.getElem?_eq_none (by simp; omega)] at h
    simp at h

/-- the same for lines that are joined and trimmed -/
theorem blockLines_trimEnd_joinLines {lines : List (List Char)} (hl : ∀ l ∈ lines, '\n' ∉ l) {line : List Char}
    {i : Nat} (h : (blockLines (trimEnd (joinLines lines)))[i]? = some line) :
    ∃ full, lines[i]? = some full ∧ trimEnd line = trimEnd full := by
  rcases eq_or_ne lines [] with rfl | hne
  · simp [joinLines, trimEnd, blockLines] at h
  · rw [← splitLines_joinLines hne hl]
    exact blockLines_trimEnd h

/-- trimming a text takes no line away that holds anything but blanks -/
theorem lt_length_blockLines_trimEnd {cs line : List Char} {i : Nat} (h : (splitLines cs)[i]? = some line)
    (hline : ∃ c ∈ line, isBlank c = false) : i < (blockLines (trimEnd cs)).length := by
  obtain ⟨c, hc, hsolid⟩ := hline
  by_contra hcut
  obtain ⟨ws, hcs, hws⟩ := exists_trimEnd_append cs
  suffices hmem : c ∈ ws by simp [hws c hmem] at hsolid
  rcases eq_or_ne (trimEnd cs) [] with hnil | hne
  · rw [hnil, List.nil_append] at hcs
    exact hcs ▸ (mem_of_mem_splitLines (List.mem_of_getElem? h) hc).1
  -- the line lies behind the lines that the trimmed text reaches into
  · obtain ⟨init, last, first, rest, h1, h2, h3⟩ := splitLines_append (trimEnd cs) ws
    rw [blockLines_of_ne_nil hne, h1, List.length_append, List.length_singleton, Nat.not_lt] at hcut
    rw [hcs, h3, List.append_cons, List.getElem?_append_right (by simpa using hcut)] at h
    have hrest : line ∈ splitLines ws := h2 ▸ List.mem_cons_of_mem _ (List.mem_of_getElem? h)
    exact (mem_of_mem_splitLines hrest hc).1

/-- trimming a text adds no line to it -/
theorem length_blockLines_trimEnd_le (cs : List Char) :
    (blockLines (trimEnd cs)).length ≤ (blockLines cs).length := by
  rcases eq_or_ne cs [] with rfl | hne
  · exact Nat.le_refl _
  · rw [blockLines_of_ne_nil hne]
    apply length_le_of_getElem?
    intro i line hline
    obtain ⟨full, hfull, -⟩ := blockLines_trimEnd hline
    exact ⟨full, hfull⟩

end TsxWorkbench.Files
