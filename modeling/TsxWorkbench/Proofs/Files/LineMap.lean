/-
The line map of a scan. Three ways of counting lines meet in it: lines of the expansion, lines of a block, and lines of
the source.

- `segments_tiled`: the segments of a list of lines are non-empty runs, one after the other without gap or overlap.
- `origin_segments`: a line of the expansion has the origin that it was expanded from, and no other line has one.
- `expand_genuine`: whatever is imported, and however deep, an expanded line is a line of the block that it names.
- `blockOf_line`: a line of a block is a line of the source, up to blanks at its end.
- `line_map_faithful`: the three together, for every source and every depth.
-/
import TsxWorkbench.Proofs.Text.Lines

namespace TsxWorkbench.Files

open Text

/-! ## Segments -/

/-- segments that are non-empty and follow one another from one line up to the line before another -/
def Tiled : Nat → List Segment → Nat → Prop
  | next, [], stop => next = stop
  | next, s :: rest, stop => s.expandedStart = next ∧ 0 < s.count ∧ Tiled (next + s.count) rest stop

theorem segments_tiled (next : Nat) (origins : List OriginLine) :
    Tiled next (segments next origins) (next + origins.length) := by
  induction origins generalizing next with
  | nil => simp [segments, Tiled]
  | cons o rest ih =>
    have h := ih (next + 1)
    rw [List.length_cons, show next + (rest.length + 1) = next + 1 + rest.length by omega]
    unfold segments
    cases hs : segments (next + 1) rest with
    | nil => rw [hs] at h; simpa [Tiled] using h
    | cons s more =>
      rw [hs] at h
      obtain ⟨hstart, hcount, hmore⟩ := h
      dsimp only
      split_ifs with hrun
      · exact ⟨rfl, Nat.succ_pos _, by rwa [show next + (s.count + 1) = next + 1 + s.count by omega]⟩
      · exact ⟨rfl, Nat.one_pos, hstart, hcount, hmore⟩

/-- block and line that a list of segments gives for an expanded line -/
def originIn? (gs : List Segment) (line : Nat) : Option (Option String × Nat) :=
  (gs.find? fun g => g.contains line).map fun g => (g.file, g.blockStart + (line - g.expandedStart))

theorem originIn?_cons_of_contains {g : Segment} {gs : List Segment} {line : Nat} (h : g.contains line = true) :
    originIn? (g :: gs) line = some (g.file, g.blockStart + (line - g.expandedStart)) := by
  simp [originIn?, h]

theorem originIn?_cons_of_not_contains {g : Segment} {gs : List Segment} {line : Nat} (h : ¬g.contains line = true) :
    originIn? (g :: gs) line = originIn? gs line := by
  simp [originIn?, h]

/-- lines outside of what segments tile have no origin in them -/
theorem originIn?_eq_none {next stop : Nat} {gs : List Segment} (h : Tiled next gs stop) {line : Nat}
    (hline : line < next ∨ stop ≤ line) : originIn? gs line = none := by
  induction gs generalizing next with
  | nil => rfl
  | cons g gs ih =>
    obtain ⟨hstart, hcount, hrest⟩ := h
    have hstop : next + g.count ≤ stop := by
      clear ih hline hstart hcount
      induction gs generalizing next g with
      | nil => exact Nat.le_of_eq hrest
      | cons g' gs ih => have := ih g' hrest.2.2; omega
    rw [originIn?_cons_of_not_contains (by simp [Segment.contains, hstart]; omega)]
    exact ih hrest (by omega)

/-- the origin of a line in the segments of a list is the one it has in the list -/
theorem origin_segments (next : Nat) (origins : List OriginLine) (i : Nat) :
    originIn? (segments next origins) (next + i) = (origins[i]?).map fun o => (o.file, o.line) := by
  induction origins generalizing next i with
  | nil => simp [segments, originIn?]
  | cons o rest ih =>
    have htiled := segments_tiled (next + 1) rest
    have hone : ∀ gs, originIn? (⟨o.file, next, o.line, 1⟩ :: gs) (next + 0) = some (o.file, o.line) := fun gs => by
      rw [originIn?_cons_of_contains (by simp [Segment.contains])]; simp
    have hskip : ∀ gs j, originIn? (⟨o.file, next, o.line, 1⟩ :: gs) (next + (j + 1)) =
        originIn? gs (next + 1 + j) := fun gs j => by
      rw [originIn?_cons_of_not_contains (by simp [Segment.contains]), show next + (j + 1) = next + 1 + j by omega]
    have ih' := fun j => ih (next + 1) j
    unfold segments
    cases hs : segments (next + 1) rest with
    | nil =>
      rw [hs] at ih'
      cases i with
      | zero => rw [hone]; rfl
      | succ j => rw [hskip, ih' j]; rfl
    | cons s more =>
      rw [hs] at ih' htiled
      obtain ⟨hstart, hcount, -⟩ := htiled
      dsimp only
      split_ifs with hrun
      · -- the line is put in front of a run that it begins
        cases i with
        | zero => rw [originIn?_cons_of_contains (by simp [Segment.contains])]; simp
        | succ j =>
          rw [List.getElem?_cons_succ, ← ih' j]
          by_cases hj : s.contains (next + 1 + j) = true
          · have hj' : j < s.count := by simp [Segment.contains, hstart] at hj; omega
            rw [originIn?_cons_of_contains hj, originIn?_cons_of_contains (by simp [Segment.contains]; omega)]
            simp only [Option.some.injEq, Prod.mk.injEq]
            exact ⟨hrun.1.symm, by omega⟩
          · have hj' : s.count ≤ j := by simp [Segment.contains, hstart] at hj; omega
            rw [originIn?_cons_of_not_contains hj, originIn?_cons_of_not_contains (by simp [Segment.contains]; omega),
              show next + (j + 1) = next + 1 + j by omega]
      · cases i with
        | zero => rw [hone]; rfl
        | succ j => rw [hskip, ih' j]; rfl

/-! ## Blocks of a scan -/

/-- the main block, or the file of a name -/
def blockIn? (main : Block) (files : List (String × Block)) : Option String → Option Block
  | none => some main
  | some name => (files.find? fun f => f.1 == name).map Prod.snd

/-- the block of a scan that a segment may name -/
def Scan.block? (s : Scan) (file : Option String) : Option Block := blockIn? s.main s.files file

theorem Scan.rawLine?_eq (s : Scan) (file : Option String) (n : Nat) :
    s.rawLine? file (n + 1) = (s.block? file).bind fun b => b.rawLines[n]? := by
  cases file with
  | none => simp [Scan.rawLine?, Scan.block?, blockIn?]
  | some name =>
    simp only [Scan.rawLine?, Scan.block?, blockIn?]
    cases (s.files.find? fun f => f.1 == name).map Prod.snd <;> simp

/-! ## Expansion -/

/-- an expanded line that is a line of the block it names -/
def OriginLine.Genuine (main : Block) (files : List (String × Block)) (o : OriginLine) : Prop :=
  ∃ b n, blockIn? main files o.file = some b ∧ o.line = n + 1 ∧ (blockLines b.text)[n]? = some o.text

theorem genuine_of_mem_zipIdx {main b : Block} {files : List (String × Block)} {file : Option String}
    (hb : blockIn? main files file = some b) {line : List Char} {n : Nat}
    (h : (line, n) ∈ (blockLines b.text).zipIdx 1) : OriginLine.Genuine main files ⟨file, n, line⟩ := by
  obtain ⟨hn, hget⟩ := List.mk_mem_zipIdx_iff_le_and_getElem?_sub.1 h
  exact ⟨b, n - 1, hb, by simp only; omega, hget⟩

theorem importable?_eq_some {files : List (String × Block)} {active : List String} {line : List Char} {name : String}
    {b : Block} (h : importable? files active line = some (name, b)) (main : Block) :
    blockIn? main files (some name) = some b := by
  unfold importable? at h
  split at h
  · simp at h
  · rename_i target _
    split at h
    · rename_i f hf
      split_ifs at h with hactive
      obtain rfl : f = (name, b) := by simpa using h
      obtain rfl : name = String.ofList target := by simpa using List.find?_some hf
      simp [blockIn?, hf]
    · simp at h

theorem expand_genuine (main : Block) (files : List (String × Block)) (depth : Nat) (active : List String)
    (file : Option String) (b : Block) (hb : blockIn? main files file = some b) :
    ∀ o ∈ expand files depth active file b.text, o.Genuine main files := by
  induction depth generalizing active file b with
  | zero =>
    intro o ho
    obtain ⟨⟨line, n⟩, hmem, rfl⟩ := List.mem_map.1 ho
    exact genuine_of_mem_zipIdx hb hmem
  | succ depth ih =>
    intro o ho
    obtain ⟨⟨line, n⟩, hmem, ho⟩ := List.mem_flatMap.1 ho
    dsimp only at ho
    split at ho
    · rename_i name block himport
      exact ih (name :: active) (some name) block (importable?_eq_some himport main) o ho
    · obtain rfl := List.mem_singleton.1 ho
      exact genuine_of_mem_zipIdx hb hmem

/-! ## From blocks to the source -/

theorem mem_placedLines {source line : List Char} {r : Nat} {p : Placement}
    (h : (r, line, p) ∈ placedLines source) : ∃ n, r = n + 1 ∧ (blockLines source)[n]? = some line := by
  obtain ⟨k, hk⟩ := List.mem_iff_getElem?.1 h
  obtain ⟨hr, hrest⟩ := List.getElem?_zip_eq_some.1 hk
  obtain ⟨hline, -⟩ := List.getElem?_zip_eq_some.1 hrest
  rw [List.getElem?_range'] at hr
  · exact ⟨k, by simp at hr; omega, hline⟩
  · exact (List.getElem?_eq_some_iff.1 hline).1

theorem mem_linesOf {file : Option String} {placed : List (Nat × List Char × Placement)} {r : Nat} {line : List Char}
    (h : (r, line) ∈ linesOf file placed) : (r, line, .content file) ∈ placed := by
  obtain ⟨⟨r', line', p⟩, hmem, hp⟩ := List.mem_filterMap.1 h
  dsimp only at hp
  split_ifs at hp with hfile
  obtain ⟨rfl, rfl⟩ : r' = r ∧ line' = line := by simpa using hp
  exact hfile ▸ hmem

theorem newline_notMem_linesOf {source : List Char} {file : Option String} :
    ∀ l ∈ (linesOf file (placedLines source)).map Prod.snd, '\n' ∉ l := by
  intro l hl
  obtain ⟨⟨r, l⟩, hmem, rfl⟩ := List.mem_map.1 hl
  obtain ⟨n, -, hget⟩ := mem_placedLines (mem_linesOf hmem)
  exact newline_notMem_of_mem_blockLines (List.mem_of_getElem? hget)

/-- a line of a block, its number in the source, and the line of the source with that number -/
theorem blockOf_line {source line : List Char} {file : Option String} {n : Nat}
    (h : (blockLines (blockOf file (placedLines source)).text)[n]? = some line) :
    ∃ r raw, (blockOf file (placedLines source)).rawLines[n]? = some (r + 1) ∧ (blockLines source)[r]? = some raw ∧
      trimEnd line = trimEnd raw := by
  set lines := linesOf file (placedLines source)
  obtain ⟨raw, hraw, htrim⟩ := blockLines_trimEnd_joinLines newline_notMem_linesOf h
  obtain ⟨⟨r', raw⟩, hpair, rfl⟩ := Option.map_eq_some_iff.1 (List.getElem?_map ▸ hraw)
  obtain ⟨r, rfl, hget⟩ := mem_placedLines (mem_linesOf (List.mem_of_getElem? hpair))
  refine ⟨r, raw, ?_, hget, htrim⟩
  have hlt := (List.getElem?_eq_some_iff.1 h).1
  show (List.take (blockLines (blockOf file (placedLines source)).text).length (lines.map Prod.fst))[n]? = _
  rw [List.getElem?_take_of_lt hlt, List.getElem?_map, hpair]
  rfl

theorem block?_scanWithDepth {source : List Char} {depth : Nat} {file : Option String} {b : Block}
    (h : (scanWithDepth source depth).block? file = some b) : b = blockOf file (placedLines source) := by
  cases file with
  | none => exact (Option.some.inj h).symm
  | some name =>
    obtain ⟨f, hf, rfl⟩ := Option.map_eq_some_iff.1 h
    obtain ⟨name', -, rfl⟩ := List.mem_map.1 (List.mem_of_find?_eq_some hf)
    obtain rfl : name' = name := by simpa using List.find?_some hf
    rfl

/-! ## Lines of the expansion -/

/-- the lines that the expansion of a source is joined from -/
def expandedLines (source : List Char) (depth : Nat) : List OriginLine :=
  expand (scanWithDepth source depth).files depth [] none (scanWithDepth source depth).main.text

theorem expandedLines_genuine (source : List Char) (depth : Nat) :
    ∀ o ∈ expandedLines source depth,
      o.Genuine (scanWithDepth source depth).main (scanWithDepth source depth).files :=
  expand_genuine _ _ depth [] none _ rfl

/-- a line of the expansion is one that was expanded, up to blanks at its end -/
theorem expandedSource_line {source line : List Char} {depth i : Nat}
    (h : (blockLines (scanWithDepth source depth).expandedSource)[i]? = some line) :
    ∃ o, (expandedLines source depth)[i]? = some o ∧ trimEnd line = trimEnd o.text := by
  have hclean : ∀ l ∈ (expandedLines source depth).map OriginLine.text, '\n' ∉ l := by
    intro l hl
    obtain ⟨o, ho, rfl⟩ := List.mem_map.1 hl
    obtain ⟨b, n, -, -, hget⟩ := expandedLines_genuine source depth o ho
    exact newline_notMem_of_mem_blockLines (List.mem_of_getElem? hget)
  obtain ⟨full, hfull, htrim⟩ := blockLines_trimEnd_joinLines hclean h
  obtain ⟨o, ho, rfl⟩ := Option.map_eq_some_iff.1 (List.getElem?_map ▸ hfull)
  exact ⟨o, ho, htrim⟩

/-- trimming the expansion adds no line to it -/
theorem length_expandedSource_le (source : List Char) (depth : Nat) :
    (blockLines (scanWithDepth source depth).expandedSource).length ≤ (expandedLines source depth).length := by
  apply length_le_of_getElem?
  intro i line hline
  obtain ⟨o, ho, -⟩ := expandedSource_line hline
  exact ⟨o, ho⟩

theorem scan_segments_tiled (source : List Char) (depth : Nat) :
    Tiled 1 (scanWithDepth source depth).segments
      ((blockLines (scanWithDepth source depth).expandedSource).length + 1) := by
  have h := segments_tiled 1
    ((expandedLines source depth).take (blockLines (scanWithDepth source depth).expandedSource).length)
  rwa [List.length_take, Nat.min_eq_left (length_expandedSource_le source depth), Nat.add_comm] at h

theorem origin?_of_lt {source : List Char} {depth i : Nat}
    (h : i < (blockLines (scanWithDepth source depth).expandedSource).length) :
    (scanWithDepth source depth).origin? (i + 1) =
      ((expandedLines source depth)[i]?).map fun o => (o.file, o.line) := by
  have := origin_segments 1
    ((expandedLines source depth).take (blockLines (scanWithDepth source depth).expandedSource).length) i
  rwa [List.getElem?_take_of_lt h, Nat.add_comm] at this

/-! ## The line map -/

/-- a scan of a source whose line map leads from every line of the expansion to the line it came from -/
structure FaithfulLineMap (source : List Char) (s : Scan) : Prop where
  /-- the segments are runs that tile the lines of the expansion -/
  tiled : Tiled 1 s.segments ((blockLines s.expandedSource).length + 1)
  /-- a line of the expansion has an origin, a line of a block, which has a number in the source; the three lines are
  the same up to blanks at their ends -/
  sameLine : ∀ i line, (blockLines s.expandedSource)[i]? = some line →
    ∃ file n b blockLine r raw, s.origin? (i + 1) = some (file, n + 1) ∧ s.block? file = some b ∧
      (blockLines b.text)[n]? = some blockLine ∧ s.rawLine? file (n + 1) = some (r + 1) ∧
      (blockLines source)[r]? = some raw ∧ trimEnd line = trimEnd blockLine ∧ trimEnd blockLine = trimEnd raw
  /-- a number that is not one of a line has no origin -/
  noOrigin : s.origin? 0 = none ∧ ∀ i, (blockLines s.expandedSource).length < i → s.origin? i = none

/-- **The line map is faithful.** For every source and every depth of imports, the segments tile the lines of the
expansion. Line i of the expansion has an origin, line n of a block; that line has a number in the source; and the
three lines are the same up to blanks at their ends. A number that is not one of a line has no origin. -/
theorem line_map_faithful (source : List Char) (depth : Nat) :
    FaithfulLineMap source (scanWithDepth source depth) := by
  have htiled := scan_segments_tiled source depth
  refine ⟨htiled, fun i line h => ?_, originIn?_eq_none htiled (by omega),
    fun i hi => originIn?_eq_none htiled (by omega)⟩
  obtain ⟨o, ho, htrim⟩ := expandedSource_line h
  obtain ⟨b, n, hb, hn, hget⟩ := expandedLines_genuine source depth o (List.mem_of_getElem? ho)
  have horigin : (scanWithDepth source depth).origin? (i + 1) = some (o.file, n + 1) := by
    rw [origin?_of_lt (List.getElem?_eq_some_iff.1 h).1, ho, ← hn]
    rfl
  obtain rfl := block?_scanWithDepth hb
  obtain ⟨r, raw, hr, hraw, htrim'⟩ := blockOf_line hget
  have hnumber : (scanWithDepth source depth).rawLine? o.file (n + 1) = some (r + 1) := by
    rw [Scan.rawLine?_eq, show (scanWithDepth source depth).block? o.file = _ from hb]
    exact hr
  exact ⟨o.file, n, _, o.text, r, raw, horigin, hb, hget, hnumber, hraw, htrim, htrim'⟩

end TsxWorkbench.Files
