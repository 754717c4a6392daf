/-
Marker lines and the blanks at their ends. A marker is read from the front of a line, and what it names is trimmed, so
blanks after it do not matter (`opened?_append_blanks`): a line opens a file if and only if it does so without the
blanks at its end (`opened?_trimEnd`), and imports what it imports without them (`importTarget?_trimEnd`).
-/
import TsxWorkbench.Files.Marker
import TsxWorkbench.Proofs.Text.Blank

namespace TsxWorkbench.Files

open Text

variable {ws : List Char}

/-- a beginning without blanks does not reach into blanks that follow a text -/
theorem stripStart?_append_blanks {start : List Char} (hstart : ∀ c ∈ start, isBlank c = false)
    (hws : ∀ c ∈ ws, isBlank c = true) (cs : List Char) :
    stripStart? start (cs ++ ws) = (stripStart? start cs).map (· ++ ws) := by
  induction start generalizing cs with
  | nil => simp [stripStart?]
  | cons p ps ih =>
    cases cs with
    | nil =>
      cases ws with
      | nil => rfl
      | cons w rest =>
        have hne : p ≠ w := by
          rintro rfl
          exact absurd (hws p List.mem_cons_self) (by simp [hstart p List.mem_cons_self])
        simp [stripStart?, hne]
    | cons c cs =>
      by_cases hc : p = c
      · simp [stripStart?, hc, ih (fun d hd => hstart d (List.mem_cons_of_mem _ hd)) cs]
      · simp [stripStart?, hc]

/-- a text that is more than blanks is trimmed at its start as if no blanks followed it -/
theorem trimStart_append_blanks {cs : List Char} (h : trimStart cs ≠ []) :
    trimStart (cs ++ ws) = trimStart cs ++ ws := by
  rw [trimStart, List.dropWhile_append, if_neg (by simpa [trimStart] using h)]
  rfl

/-- blanks that follow blanks are trimmed with them -/
theorem trimStart_append_of_blank {cs : List Char} (h : trimStart cs = []) (hws : ∀ c ∈ ws, isBlank c = true) :
    trimStart (cs ++ ws) = [] :=
  List.dropWhile_eq_nil_iff.2 (List.forall_mem_append.2 ⟨List.dropWhile_eq_nil_iff.1 h, hws⟩)

/-- the same after the blanks at the start of a text -/
theorem stripStart?_trimStart_append {start : List Char} (hne : start ≠ [])
    (hstart : ∀ c ∈ start, isBlank c = false) (hws : ∀ c ∈ ws, isBlank c = true) (cs : List Char) :
    stripStart? start (trimStart (cs ++ ws)) = (stripStart? start (trimStart cs)).map (· ++ ws) := by
  by_cases hcs : trimStart cs = []
  · rw [trimStart_append_of_blank hcs hws, hcs]
    cases start with
    | nil => exact absurd rfl hne
    | cons p ps => rfl
  · rw [trimStart_append_blanks hcs, stripStart?_append_blanks hstart hws]

theorem trim_append_blanks (cs : List Char) (hws : ∀ c ∈ ws, isBlank c = true) : trim (cs ++ ws) = trim cs := by
  by_cases hcs : trimStart cs = []
  · rw [trim, trim, trimStart_append_of_blank hcs hws, hcs]
  · rw [trim, trim, trimStart_append_blanks hcs, trimEnd_append_blanks _ hws]

/-- blanks after a marker do not change what it opens -/
theorem opened?_append_blanks (line : List Char) (hws : ∀ c ∈ ws, isBlank c = true) :
    opened? (line ++ ws) = opened? line := by
  have hslashes : ∀ c ∈ "//".toList, isBlank c = false := isBlank_of_all (by decide)
  have hmarker : ∀ c ∈ "@snippet-file".toList, isBlank c = false := isBlank_of_all (by decide)
  have hrest : (afterSlashes? (line ++ ws)).bind (stripStart? "@snippet-file".toList) =
      ((afterSlashes? line).bind (stripStart? "@snippet-file".toList)).map (· ++ ws) := by
    unfold afterSlashes?
    rw [stripStart?_trimStart_append (by decide) hslashes hws]
    cases stripStart? "//".toList (trimStart line) with
    | none => rfl
    | some body => exact stripStart?_trimStart_append (by decide) hmarker hws body
  unfold opened?
  rw [hrest]
  cases (afterSlashes? line).bind (stripStart? "@snippet-file".toList) with
  | none => rfl
  | some name =>
    cases name with
    | nil =>
      -- blanks alone are no name
      cases ws with
      | nil => rfl
      | cons w rest =>
        have hnone : trim (w :: rest) = [] := trim_append_blanks [] hws
        simp [hnone]
    | cons c cs =>
      have hname : trim (c :: (cs ++ ws)) = trim (c :: cs) := trim_append_blanks (c :: cs) hws
      simp [hname]

/-- **Markers are read without the blanks at their ends.** -/
theorem opened?_trimEnd (line : List Char) : opened? (trimEnd line) = opened? line := by
  obtain ⟨ws, hline, hws⟩ := exists_trimEnd_append line
  calc opened? (trimEnd line) = opened? (trimEnd line ++ ws) := (opened?_append_blanks _ hws).symm
    _ = opened? line := congrArg opened? hline.symm

/-! ## Imports -/

theorem isNameChar_of_isBlank {c : Char} (h : isBlank c = true) : isNameChar c = false := by
  simp [isNameChar, h]

/-- blanks do not begin with a quote -/
theorem dropQuote_append_blanks (cs : List Char) (hws : ∀ c ∈ ws, isBlank c = true) :
    dropQuote (cs ++ ws) = dropQuote cs ++ ws := by
  cases cs with
  | nil =>
    cases ws with
    | nil => rfl
    | cons w rest =>
      have hquote : ¬(w = '\x22' ∨ w = '\'') := by
        rintro (rfl | rfl) <;> exact absurd (hws _ List.mem_cons_self) (by decide)
      exact if_neg hquote
  | cons c cs =>
    by_cases hquote : c = '\x22' ∨ c = '\''
    · simp [dropQuote, hquote]
    · simp [dropQuote, hquote]

theorem dropSemicolon_append {cs : List Char} (h : cs ≠ []) : dropSemicolon (cs ++ ws) = dropSemicolon cs ++ ws := by
  cases cs with
  | nil => exact absurd rfl h
  | cons c cs =>
    rw [List.cons_append]
    by_cases hc : c = ';'
    · subst hc
      rfl
    · simp [dropSemicolon, hc]

/-- a name ends before the blanks after it -/
theorem takeWhile_isNameChar_append (cs : List Char) (hws : ∀ c ∈ ws, isBlank c = true) :
    (cs ++ ws).takeWhile isNameChar = cs.takeWhile isNameChar ∧
      (cs ++ ws).dropWhile isNameChar = cs.dropWhile isNameChar ++ ws := by
  have hblank : ws.takeWhile isNameChar = [] ∧ ws.dropWhile isNameChar = ws := by
    cases ws with
    | nil => exact ⟨rfl, rfl⟩
    | cons w rest => simp [isNameChar_of_isBlank (hws w List.mem_cons_self)]
  induction cs with
  | nil => exact hblank
  | cons c cs ih =>
    cases hc : isNameChar c with
    | true => simpa [hc] using ih
    | false => simp [hc]

/-- what may stand after a name stays so when blanks follow -/
theorem all_isBlank_tail_append (cs : List Char) (hws : ∀ c ∈ ws, isBlank c = true) :
    (dropSemicolon (trimStart (cs ++ ws))).all isBlank = (dropSemicolon (trimStart cs)).all isBlank := by
  by_cases hcs : trimStart cs = []
  · rw [trimStart_append_of_blank hcs hws, hcs]
  · rw [trimStart_append_blanks hcs, dropSemicolon_append hcs, List.all_append, List.all_eq_true.2 hws, Bool.and_true]

/-- blanks after an import do not change what it imports -/
theorem importTarget?_append_blanks (line : List Char) (hws : ∀ c ∈ ws, isBlank c = true) :
    importTarget? (line ++ ws) = importTarget? line := by
  have hslashes : ∀ c ∈ "//".toList, isBlank c = false := isBlank_of_all (by decide)
  have hword : ∀ c ∈ "@import".toList, isBlank c = false := isBlank_of_all (by decide)
  have hrest : stripStart? "@import".toList ((afterSlashes? (line ++ ws)).getD (trimStart (line ++ ws))) =
      (stripStart? "@import".toList ((afterSlashes? line).getD (trimStart line))).map (· ++ ws) := by
    unfold afterSlashes?
    rw [stripStart?_trimStart_append (by decide) hslashes hws]
    cases stripStart? "//".toList (trimStart line) with
    | none => exact stripStart?_trimStart_append (by decide) hword hws line
    | some body => exact stripStart?_trimStart_append (by decide) hword hws body
  unfold importTarget?
  dsimp only
  rw [hrest]
  cases stripStart? "@import".toList ((afterSlashes? line).getD (trimStart line)) with
  | none => rfl
  | some asked =>
    cases asked with
    | nil =>
      -- blanks alone name nothing
      cases ws with
      | nil => rfl
      | cons w rest =>
        have hnone : trimStart rest = [] :=
          List.dropWhile_eq_nil_iff.2 fun c hc => hws c (List.mem_cons_of_mem _ hc)
        simp [hnone, dropQuote]
    | cons c asked =>
      rw [Option.map_some, List.cons_append]
      dsimp only
      by_cases hasked : trimStart asked = []
      · rw [trimStart_append_of_blank hasked hws, hasked]
      · obtain ⟨hname, hafter⟩ := takeWhile_isNameChar_append (dropQuote (trimStart asked)) hws
        rw [trimStart_append_blanks hasked, dropQuote_append_blanks _ hws, hname, hafter,
          dropQuote_append_blanks _ hws, all_isBlank_tail_append _ hws]

/-- **Imports are read without the blanks at their ends.** -/
theorem importTarget?_trimEnd (line : List Char) : importTarget? (trimEnd line) = importTarget? line := by
  obtain ⟨ws, hline, hws⟩ := exists_trimEnd_append line
  calc importTarget? (trimEnd line) = importTarget? (trimEnd line ++ ws) := (importTarget?_append_blanks _ hws).symm
    _ = importTarget? line := congrArg importTarget? hline.symm

end TsxWorkbench.Files
