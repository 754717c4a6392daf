/-
A second scan. A line that opens a file is no line of a block, and trimming makes no line open one, so what a scan
expands holds no such line, however imports were expanded or left (`unopened_expandedSource`). A source without such
lines is its own only block (`scanWithDepth_of_unopened`). Scanning an expansion again therefore changes nothing:
`rescan_fixpoint`.
-/
import TsxWorkbench.Proofs.Files.LineMap
import TsxWorkbench.Proofs.Files.Marker

namespace TsxWorkbench.Files

open Text

/-- a source in which no line opens a file -/
def Unopened (source : List Char) : Prop := ∀ line ∈ blockLines source, opened? line = none

instance (source : List Char) : Decidable (Unopened source) :=
  inferInstanceAs (Decidable (∀ line ∈ blockLines source, opened? line = none))

/-- the scan of a text that is one block and its own expansion, line by line -/
def Scan.plain (text : List Char) : Scan :=
  let lines := (blockLines text).length
  ⟨⟨text, List.range' 1 lines⟩, [], false, text, if text.isEmpty then [] else [⟨none, 1, 1, lines⟩]⟩

/-! ## Lines of blocks -/

/-- only lines that open no file are content -/
theorem opened?_of_content {file current : Option String} {line : List Char} {lines : List (List Char)}
    (h : (line, Placement.content file) ∈ lines.zip (place current lines)) : opened? line = none := by
  induction lines generalizing current with
  | nil => cases h
  | cons first rest ih =>
    unfold place at h
    split at h
    · rw [List.zip_cons_cons, List.mem_cons] at h
      rcases h with h | h
      · cases h
      · exact ih h
    · rename_i hopened
      split at h
      · rw [List.zip_cons_cons, List.mem_cons] at h
        rcases h with h | h
        · cases h
        · exact ih h
      · rw [List.zip_cons_cons, List.mem_cons] at h
        rcases h with h | h
        · cases h
          exact hopened
        · exact ih h

theorem opened?_of_mem_linesOf {source line : List Char} {file : Option String} {r : Nat}
    (h : (r, line) ∈ linesOf file (placedLines source)) : opened? line = none :=
  opened?_of_content (List.of_mem_zip (mem_linesOf h)).2

/-- no line of a block opens a file -/
theorem unopened_blockOf (file : Option String) (source : List Char) :
    Unopened (blockOf file (placedLines source)).text := by
  intro line hline
  obtain ⟨n, hn⟩ := List.mem_iff_getElem?.1 hline
  obtain ⟨full, hfull, htrim⟩ := blockLines_trimEnd_joinLines newline_notMem_linesOf hn
  obtain ⟨⟨r, full⟩, hmem, rfl⟩ := List.mem_map.1 (List.mem_of_getElem? hfull)
  rw [← opened?_trimEnd, htrim, opened?_trimEnd, opened?_of_mem_linesOf hmem]

/-- no line of an expansion opens a file -/
theorem unopened_expandedSource (source : List Char) (depth : Nat) :
    Unopened (scanWithDepth source depth).expandedSource := by
  intro line hline
  obtain ⟨i, hi⟩ := List.mem_iff_getElem?.1 hline
  obtain ⟨o, ho, htrim⟩ := expandedSource_line hi
  obtain ⟨b, n, hb, -, hget⟩ := expandedLines_genuine source depth o (List.mem_of_getElem? ho)
  obtain rfl := block?_scanWithDepth hb
  rw [← opened?_trimEnd, htrim, opened?_trimEnd, unopened_blockOf o.file source _ (List.mem_of_getElem? hget)]

/-! ## Sources without files -/

theorem place_of_unopened {lines : List (List Char)} (h : ∀ line ∈ lines, opened? line = none) :
    place none lines = lines.map fun _ => Placement.content none := by
  induction lines with
  | nil => rfl
  | cons line rest ih =>
    rw [List.forall_mem_cons] at h
    rw [place, h.1]
    simp [ih h.2]

/-- without a line that opens a file every line is content of the main block -/
theorem placedLines_of_unopened {source : List Char} (h : Unopened source) :
    placedLines source = ((blockLines source).zipIdx 1).map fun (line, n) => (n, line, Placement.content none) := by
  have hnumbered : ∀ (lines : List (List Char)) (first : Nat),
      (List.range' first lines.length).zip (lines.zip (lines.map fun _ => Placement.content none)) =
        (lines.zipIdx first).map fun (line, n) => (n, line, Placement.content none) := by
    intro lines
    induction lines with
    | nil => exact fun _ => rfl
    | cons line rest ih =>
      intro first
      rw [List.length_cons, List.range'_succ, List.map_cons, List.zip_cons_cons, List.zip_cons_cons, ih]
      rfl
  unfold placedLines
  dsimp only
  rw [place_of_unopened h, hnumbered]

theorem blockOf_of_unopened {source : List Char} (h : Unopened source) : blockOf none (placedLines source) =
    ⟨trimEnd source, List.range' 1 (blockLines (trimEnd source)).length⟩ := by
  have hlines : linesOf none (placedLines source) = ((blockLines source).zipIdx 1).map fun (line, n) => (n, line) := by
    rw [placedLines_of_unopened h, linesOf, List.filterMap_map]
    simp
  have htext : (linesOf none (placedLines source)).map Prod.snd = blockLines source := by
    rw [hlines, List.map_map]
    exact List.zipIdx_map_fst 1 _
  have hnumbers : (linesOf none (placedLines source)).map Prod.fst = List.range' 1 (blockLines source).length := by
    rw [hlines, List.map_map]
    exact List.zipIdx_map_snd 1 _
  unfold blockOf
  dsimp only
  rw [htext, hnumbers, joinLines_blockLines, List.take_range'_of_length_ge (length_blockLines_trimEnd_le source)]

theorem fileNames_of_unopened {source : List Char} (h : Unopened source) : fileNames (placedLines source) = [] := by
  rw [placedLines_of_unopened h, fileNames, List.filterMap_map]
  simp

/-- lines of one block in a row are one segment -/
theorem segments_block (file : Option String) (next first : Nat) {lines : List (List Char)} (h : lines ≠ []) :
    segments next ((lines.zipIdx first).map fun (line, n) => ⟨file, n, line⟩) =
      [⟨file, next, first, lines.length⟩] := by
  induction lines generalizing next first with
  | nil => exact absurd rfl h
  | cons line rest ih =>
    rw [List.zipIdx_cons, List.map_cons, segments]
    cases rest with
    | nil => rfl
    | cons line' rest =>
      rw [ih (next + 1) (first + 1) (List.cons_ne_nil _ _)]
      simp

/-- without files nothing is imported -/
theorem expand_nil (depth : Nat) (active : List String) (file : Option String) (text : List Char) :
    expand [] depth active file text = ((blockLines text).zipIdx 1).map fun (line, n) => ⟨file, n, line⟩ := by
  cases depth with
  | zero => rfl
  | succ depth =>
    have hnone : ∀ line, importable? [] active line = none := by
      intro line
      unfold importable?
      split <;> rfl
    rw [List.map_eq_flatMap, expand]
    simp only [hnone]

theorem scanWithDepth_of_unopened {source : List Char} (h : Unopened source) (depth : Nat) :
    scanWithDepth source depth = .plain (trimEnd source) := by
  have htrim : trimEnd (trimEnd source) = trimEnd source := List.rdropWhile_idempotent isBlank source
  have htexts : (((blockLines (trimEnd source)).zipIdx 1).map fun (line, n) => OriginLine.mk none n line).map
      OriginLine.text = blockLines (trimEnd source) := by
    rw [List.map_map]
    exact List.zipIdx_map_fst 1 _
  unfold scanWithDepth
  dsimp only
  rw [fileNames_of_unopened h, blockOf_of_unopened h]
  dsimp only
  rw [List.map_nil, expand_nil, htexts, joinLines_blockLines, htrim, List.take_of_length_le (by simp)]
  unfold Scan.plain
  dsimp only
  congr 1
  split
  · rename_i hempty
    simp [blockLines, hempty, segments]
  · rename_i hfull
    have hlines : blockLines (trimEnd source) ≠ [] := by
      rw [blockLines_of_ne_nil (by simpa using hfull)]
      exact splitLines_ne_nil _
    exact segments_block none 1 1 hlines

/-- **Scanning an expansion again changes nothing.** -/
theorem rescan_fixpoint :
    (∀ source depth depth', scanWithDepth (scanWithDepth source depth).expandedSource depth' =
      .plain (scanWithDepth source depth).expandedSource) ∧
    ∀ source depth, Unopened source → scanWithDepth source depth = .plain (trimEnd source) := by
  constructor
  · intro source depth depth'
    have htrim : trimEnd (scanWithDepth source depth).expandedSource = (scanWithDepth source depth).expandedSource :=
      List.rdropWhile_idempotent isBlank _
    rw [scanWithDepth_of_unopened (unopened_expandedSource source depth), htrim]
  · intro source depth h
    exact scanWithDepth_of_unopened h depth

/-- an import of an unknown file, an end without a beginning, and blanks at the end -/
def leftovers : List Char := "// @import b\nx\n// @snippet-file-end \n\n".toList

/-- such lines are content -/
theorem rescan_fixpoint_leftovers :
    scanWithDepth leftovers 3 = .plain "// @import b\nx\n// @snippet-file-end".toList := by
  have hunopened : Unopened leftovers := by decide
  have htrim : trimEnd leftovers = "// @import b\nx\n// @snippet-file-end".toList := by decide
  rw [rescan_fixpoint.2 leftovers 3 hunopened, htrim]

end TsxWorkbench.Files
