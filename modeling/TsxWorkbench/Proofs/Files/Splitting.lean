/-
The split of a source into blocks loses and duplicates nothing.

- `place_getElem?`: a line is placed by what it is itself and by the file that the markers before it leave open;
  `openAfter_eq_some_iff` says which file that is without a run over the lines.
- `rawLines_getElem?`: the source lines of a block are the lines placed in it, up to the blank lines at its end.
- `fileNames_firstMarker`: the names of the files, in the order of their first markers.
- `scan_split`: a line that is not blank is a marker or one line of one block, never both and never two; the lines of a
  block are numbered without gaps and in the order of the source.
-/
import TsxWorkbench.Proofs.Files.LineMap
import TsxWorkbench.Proofs.Text.Sorting

namespace TsxWorkbench.Files

open Text

/-! ## The open file -/

/-- the file that is open after a line -/
def openNext (current : Option String) (line : List Char) : Option String :=
  match opened? line with
  | some name => some name
  | none => if isEnd line then none else current

/-- the file that is open after lines -/
def openAfter (current : Option String) (lines : List (List Char)) : Option String := lines.foldl openNext current

/-- placement of a line while a file is open, or none -/
def placement (current : Option String) (line : List Char) : Placement :=
  match opened? line with
  | some name => .opens name
  | none => if current.isSome && isEnd line then .ends else .content current

theorem place_cons (current : Option String) (line : List Char) (rest : List (List Char)) :
    place current (line :: rest) = placement current line :: place (openNext current line) rest := by
  rw [place, placement, openNext]
  cases opened? line with
  | some name => rfl
  | none => cases current <;> cases isEnd line <;> rfl

theorem length_place (current : Option String) (lines : List (List Char)) :
    (place current lines).length = lines.length := by
  induction lines generalizing current with
  | nil => rfl
  | cons line rest ih => rw [place_cons, List.length_cons, List.length_cons, ih]

theorem place_getElem? (current : Option String) (lines : List (List Char)) (r : Nat) :
    (place current lines)[r]? = (lines[r]?).map (placement (openAfter current (lines.take r))) := by
  induction lines generalizing current r with
  | nil => rfl
  | cons line rest ih =>
    rw [place_cons]
    cases r with
    | zero => rfl
    | succ r => rw [List.getElem?_cons_succ, ih, List.getElem?_cons_succ, List.take_succ_cons, openAfter, openAfter,
        List.foldl_cons]

/-- a file is open before a line: an earlier line opened it, and no marker stands in between -/
def OpenAt (lines : List (List Char)) (r : Nat) (name : String) : Prop :=
  ∃ k line, k < r ∧ lines[k]? = some line ∧ opened? line = some name ∧
    ∀ j between, k < j → j < r → lines[j]? = some between → opened? between = none ∧ isEnd between = false

theorem openAfter_eq_some_iff {lines : List (List Char)} {r : Nat} (hr : r ≤ lines.length) {name : String} :
    openAfter none (lines.take r) = some name ↔ OpenAt lines r name := by
  induction r with
  | zero => simp [openAfter, OpenAt]
  | succ r ih =>
    have hlast : lines[r]? = some lines[r] := List.getElem?_eq_getElem hr
    specialize ih (Nat.le_of_succ_le hr)
    rw [List.take_succ_eq_append_getElem hr, openAfter, List.foldl_append, List.foldl_cons, List.foldl_nil]
    rw [openAfter] at ih
    unfold openNext
    constructor
    · intro h
      split at h
      · rename_i opened hopened
        cases h
        exact ⟨r, lines[r], Nat.lt_succ_self r, hlast, hopened, fun j _ hj hj' => by omega⟩
      · rename_i hnone
        split_ifs at h with hend
        obtain ⟨k, line, hk, hline, hopened, hbetween⟩ := ih.1 h
        refine ⟨k, line, by omega, hline, hopened, fun j between hj hj' hget => ?_⟩
        rcases Nat.lt_succ_iff_lt_or_eq.1 hj' with hlt | rfl
        · exact hbetween j between hj hlt hget
        · obtain rfl : lines[j] = between := Option.some.inj (hlast.symm.trans hget)
          exact ⟨hnone, Bool.eq_false_iff.2 hend⟩
    · rintro ⟨k, line, hk, hline, hopened, hbetween⟩
      rcases Nat.lt_succ_iff_lt_or_eq.1 hk with hlt | rfl
      · obtain ⟨hnone, hend⟩ := hbetween r _ hlt (Nat.lt_succ_self r) hlast
        simp only [hnone, hend]
        exact ih.2 ⟨k, line, hlt, hline, hopened, fun j between hj hj' => hbetween j between hj (by omega)⟩
      · obtain rfl : lines[k] = line := Option.some.inj (hlast.symm.trans hline)
        simp only [hopened]

/-- a line that ends the file that is open before it -/
def EndsFile (lines : List (List Char)) (r : Nat) : Prop :=
  (∃ line, lines[r]? = some line ∧ isEnd line = true) ∧ ∃ name, OpenAt lines r name

/-! ## What a placement says -/

/-- a line that opens a file does not end one -/
theorem isEnd_of_opened? {line : List Char} {name : String} (h : opened? line = some name) : isEnd line = false := by
  unfold opened? at h
  unfold isEnd
  cases hbody : afterSlashes? line with
  | none => rfl
  | some body =>
    rw [hbody, Option.bind_some] at h
    rw [Option.bind_some]
    split at h
    · rename_i c rest hopen
      -- the blank behind the one marker is a hyphen in the other
      have hend : stripStart? "@snippet-file-end".toList body = none := by
        refine Option.eq_none_iff_forall_ne_some.2 fun tail htail => ?_
        rw [stripStart?_eq_some_iff] at hopen htail
        have hc : c :: rest = "-end".toList ++ tail := List.append_cancel_left (hopen.symm.trans htail)
        obtain rfl : c = '-' := (List.cons.inj hc).1
        simp [show isBlank '-' = false by decide] at h
      rw [hend]
    · cases h

theorem placement_of_opened? {current : Option String} {line : List Char} {name : String}
    (h : opened? line = some name) : placement current line = .opens name := by
  rw [placement, h]

theorem placement_of_not_opened? {line : List Char} (h : opened? line = none) (current : Option String) :
    placement current line = if current.isSome && isEnd line then .ends else .content current := by
  rw [placement, h]

theorem eq_of_placement_content {current file : Option String} {line : List Char}
    (h : placement current line = .content file) : current = file := by
  unfold placement at h
  split at h
  · cases h
  · split_ifs at h
    exact Placement.content.inj h

/-- the lines that end the open file are placed as such -/
theorem endsFile_iff {lines : List (List Char)} {r : Nat} {line : List Char} (hline : lines[r]? = some line) :
    EndsFile lines r ↔ ((openAfter none (lines.take r)).isSome && isEnd line) = true := by
  have hr : r ≤ lines.length := (List.getElem?_eq_some_iff.1 hline).1.le
  simp only [EndsFile, hline, Option.some.injEq, exists_eq_left', ← openAfter_eq_some_iff hr,
    ← Option.isSome_iff_exists, Bool.and_eq_true, and_comm]

/-! ## Lines with their numbers -/

theorem placedLines_getElem? (source : List Char) (r : Nat) :
    (placedLines source)[r]? = ((blockLines source)[r]?).map fun line =>
      (r + 1, line, placement (openAfter none ((blockLines source).take r)) line) := by
  unfold placedLines
  cases hline : (blockLines source)[r]? with
  | none =>
    have hlen : (blockLines source).length ≤ r := List.getElem?_eq_none_iff.1 hline
    simp [length_place, hlen]
  | some line =>
    have hlt : r < (blockLines source).length := (List.getElem?_eq_some_iff.1 hline).1
    refine List.getElem?_zip_eq_some.2 ⟨?_, List.getElem?_zip_eq_some.2 ⟨hline, ?_⟩⟩
    · rw [List.getElem?_range' hlt]
      simp [Nat.add_comm]
    · rw [place_getElem?, hline]
      rfl

/-- numbers of the lines placed in a block -/
def numbersOf (file : Option String) (source : List Char) : List Nat :=
  (linesOf file (placedLines source)).map Prod.fst

theorem mem_numbersOf {file : Option String} {source : List Char} {r : Nat} : r + 1 ∈ numbersOf file source ↔
    ∃ line, (blockLines source)[r]? = some line ∧
      placement (openAfter none ((blockLines source).take r)) line = .content file := by
  constructor
  · intro h
    obtain ⟨⟨n, line⟩, hmem, rfl⟩ := List.mem_map.1 h
    obtain ⟨k, hk⟩ := List.mem_iff_getElem?.1 (mem_linesOf hmem)
    rw [placedLines_getElem?] at hk
    obtain ⟨line', hline, heq⟩ := Option.map_eq_some_iff.1 hk
    simp only [Prod.mk.injEq, Nat.add_right_cancel_iff] at heq
    obtain ⟨rfl, rfl, hplace⟩ := heq
    exact ⟨line', hline, hplace⟩
  · rintro ⟨line, hline, hplace⟩
    have hget : (placedLines source)[r]? = some (r + 1, line, .content file) := by
      rw [placedLines_getElem?, hline, Option.map_some, hplace]
    exact List.mem_map.2 ⟨(r + 1, line), List.mem_filterMap.2 ⟨_, List.mem_of_getElem? hget, if_pos rfl⟩, rfl⟩

theorem numbersOf_strict (file : Option String) (source : List Char) : (numbersOf file source).Pairwise (· < ·) := by
  have hall : ((placedLines source).map Prod.fst).Pairwise (· < ·) := by
    unfold placedLines
    dsimp only
    rw [List.map_fst_zip (by simp [length_place])]
    exact List.pairwise_lt_range' 1 Nat.one_pos
  -- the lines of a block are some of all lines
  rw [numbersOf, List.pairwise_map, linesOf, List.pairwise_filterMap]
  rw [List.pairwise_map] at hall
  refine hall.imp fun {p q} hlt a ha b hb => ?_
  obtain ⟨n, line, placed⟩ := p
  obtain ⟨n', line', placed'⟩ := q
  dsimp only at ha hb
  split_ifs at ha hb
  obtain rfl := Option.some.inj ha
  obtain rfl := Option.some.inj hb
  exact hlt

/-! ## Blocks -/

theorem rawLines_getElem? {file : Option String} {source : List Char} {i r : Nat} :
    (blockOf file (placedLines source)).rawLines[i]? = some r ↔
      i < (blockLines (blockOf file (placedLines source)).text).length ∧ (numbersOf file source)[i]? = some r := by
  have htake : (blockOf file (placedLines source)).rawLines =
      (numbersOf file source).take (blockLines (blockOf file (placedLines source)).text).length := rfl
  rw [htake, List.getElem?_take, Option.ite_none_right_eq_some]

/-- a line of a block has a number -/
theorem exists_rawLine {file : Option String} {source : List Char} {i : Nat}
    (h : i < (blockLines (blockOf file (placedLines source)).text).length) :
    ∃ r : Nat, (blockOf file (placedLines source)).rawLines[i]? = some r := by
  obtain ⟨r, raw, hr, -, -⟩ := blockOf_line (List.getElem?_eq_getElem h)
  exact ⟨r + 1, hr⟩

/-- a line that is placed in a block and is not blank is a line of its text -/
theorem exists_index_of_placed {file : Option String} {source line : List Char} {r : Nat}
    (hline : (blockLines source)[r]? = some line)
    (hplace : placement (openAfter none ((blockLines source).take r)) line = .content file)
    (hsolid : ∃ c ∈ line, isBlank c = false) :
    ∃ i : Nat, (blockOf file (placedLines source)).rawLines[i]? = some (r + 1) := by
  have hmem : (r + 1, line) ∈ linesOf file (placedLines source) := by
    have hget : (placedLines source)[r]? = some (r + 1, line, .content file) := by
      rw [placedLines_getElem?, hline, Option.map_some, hplace]
    exact List.mem_filterMap.2 ⟨_, List.mem_of_getElem? hget, if_pos rfl⟩
  obtain ⟨i, hi⟩ : ∃ i : Nat, (linesOf file (placedLines source))[i]? = some (r + 1, line) :=
    List.mem_iff_getElem?.1 hmem
  have htext : ((linesOf file (placedLines source)).map Prod.snd)[i]? = some line := by rw [List.getElem?_map, hi]; rfl
  have hnumber : (numbersOf file source)[i]? = some (r + 1) := by rw [numbersOf, List.getElem?_map, hi]; rfl
  have hsplit := splitLines_joinLines (List.ne_nil_of_mem (List.mem_of_getElem? htext)) newline_notMem_linesOf
  exact ⟨i, rawLines_getElem?.2 ⟨lt_length_blockLines_trimEnd (hsplit.symm ▸ htext) hsolid, hnumber⟩⟩

/-! ## Names of the files -/

/-- number of lines before the first one that opens a file -/
def firstMarker (lines : List (List Char)) (name : String) : Nat := lines.findIdx fun line => opened? line == some name

theorem map_fst_files (source : List Char) (depth : Nat) :
    (scanWithDepth source depth).files.map Prod.fst = fileNames (placedLines source) := by
  unfold scanWithDepth
  simp [List.map_map, Function.comp_def]

/-- the name that a marker opens -/
def openedBy? : Placement → Option String
  | .opens name => some name
  | _ => none

theorem openedBy?_placement (current : Option String) (line : List Char) :
    openedBy? (placement current line) = opened? line := by
  unfold placement
  cases opened? line with
  | some name => rfl
  | none =>
    dsimp only
    split_ifs <;> rfl

theorem fileNames_eq (placed : List (Nat × List Char × Placement)) :
    fileNames placed = (placed.filterMap fun t => openedBy? t.2.2).eraseDups :=
  rfl

theorem fileNames_placedLines (source : List Char) :
    fileNames (placedLines source) = ((blockLines source).filterMap opened?).eraseDups := by
  have hopens (current : Option String) (lines : List (List Char)) (first : Nat) :
      ((List.range' first lines.length).zip (lines.zip (place current lines))).filterMap (fun t => openedBy? t.2.2) =
        lines.filterMap opened? := by
    induction lines generalizing current first with
    | nil => rfl
    | cons line rest ih =>
      rw [place_cons, List.length_cons, List.range'_succ, List.zip_cons_cons, List.zip_cons_cons, List.filterMap_cons,
        List.filterMap_cons, openedBy?_placement, ih]
  rw [fileNames_eq]
  exact congrArg List.eraseDups (hopens none (blockLines source) 1)

theorem mem_fileNames {source : List Char} {name : String} :
    name ∈ fileNames (placedLines source) ↔ ∃ line ∈ blockLines source, opened? line = some name := by
  rw [fileNames_placedLines, List.mem_eraseDups, List.mem_filterMap]

/-- a file that is open is one of the files -/
theorem mem_fileNames_of_openAfter {source : List Char} {r : Nat} (hr : r ≤ (blockLines source).length) {name : String}
    (h : openAfter none ((blockLines source).take r) = some name) : name ∈ fileNames (placedLines source) := by
  obtain ⟨k, marker, -, hmarker, hname, -⟩ := (openAfter_eq_some_iff hr).1 h
  exact mem_fileNames.2 ⟨marker, List.mem_of_getElem? hmarker, hname⟩

/-- a marker at the end does not come before the first one of a name that was there -/
theorem firstMarker_append_of_mem {lines : List (List Char)} {name : String} (h : name ∈ lines.filterMap opened?)
    (line : List Char) :
    firstMarker lines name < lines.length ∧ firstMarker (lines ++ [line]) name = firstMarker lines name := by
  obtain ⟨l, hl, hopened⟩ := List.mem_filterMap.1 h
  have hlt : firstMarker lines name < lines.length :=
    List.findIdx_lt_length_of_exists ⟨l, hl, beq_iff_eq.2 hopened⟩
  exact ⟨hlt, List.findIdx_append.trans (if_pos hlt)⟩

/-- a name that was not there is opened at the end at the earliest -/
theorem length_le_firstMarker_append {lines : List (List Char)} {name : String} (h : name ∉ lines.filterMap opened?)
    (line : List Char) : lines.length ≤ firstMarker (lines ++ [line]) name := by
  have hnone : ∀ l ∈ lines, (opened? l == some name) = false := fun l hl =>
    beq_eq_false_iff_ne.2 fun hopened => h (List.mem_filterMap.2 ⟨l, hl, hopened⟩)
  rw [firstMarker, List.findIdx_append, List.findIdx_eq_length.2 hnone, if_neg (Nat.lt_irrefl _)]
  exact Nat.le_add_left _ _

/-- names come in the order of their first markers -/
theorem fileNames_firstMarker (source : List Char) : (fileNames (placedLines source)).Pairwise fun a b =>
    firstMarker (blockLines source) a < firstMarker (blockLines source) b := by
  rw [fileNames_placedLines]
  induction blockLines source using List.reverseRecOn with
  | nil => exact .nil
  | append_singleton lines line ih =>
    have hold : (lines.filterMap opened?).eraseDups.Pairwise fun a b =>
        firstMarker (lines ++ [line]) a < firstMarker (lines ++ [line]) b := by
      refine ih.imp_of_mem fun {a b} ha hb h => ?_
      rwa [(firstMarker_append_of_mem (List.mem_eraseDups.1 ha) line).2,
        (firstMarker_append_of_mem (List.mem_eraseDups.1 hb) line).2]
    rw [List.filterMap_append]
    cases hopened : opened? line with
    | none => simpa [hopened] using hold
    | some name =>
      rw [List.filterMap_cons_some hopened, List.filterMap_nil, eraseDups_concat]
      split_ifs with hnew
      · exact hold
      · refine List.pairwise_append.2 ⟨hold, List.pairwise_singleton _ _, fun a ha b hb => ?_⟩
        obtain rfl := List.mem_singleton.1 hb
        obtain ⟨hlt, hkeep⟩ := firstMarker_append_of_mem (List.mem_eraseDups.1 ha) line
        rw [hkeep]
        exact hlt.trans_le (length_le_firstMarker_append hnew line)

/-! ## The split -/

/-- the block of a name that the source has -/
theorem block?_eq_some_iff {source : List Char} {depth : Nat} {file : Option String} {b : Block} :
    (scanWithDepth source depth).block? file = some b ↔
      (∀ name, file = some name → name ∈ fileNames (placedLines source)) ∧ b = blockOf file (placedLines source) := by
  constructor
  · intro h
    refine ⟨?_, block?_scanWithDepth h⟩
    rintro name rfl
    obtain ⟨f, hf, -⟩ := Option.map_eq_some_iff.1 h
    obtain ⟨known, hknown, rfl⟩ := List.mem_map.1 (List.mem_of_find?_eq_some hf)
    obtain rfl : known = name := by simpa using List.find?_some hf
    exact hknown
  · rintro ⟨hknown, rfl⟩
    cases file with
    | none => rfl
    | some name =>
      have hmem : (name, blockOf (some name) (placedLines source)) ∈ (scanWithDepth source depth).files :=
        List.mem_map_of_mem (hknown name rfl)
      obtain ⟨f, hf⟩ : ∃ f, (scanWithDepth source depth).files.find? (fun f => f.1 == name) = some f :=
        Option.isSome_iff_exists.1 (List.find?_isSome.2 ⟨_, hmem, beq_self_eq_true name⟩)
      have hblock : (scanWithDepth source depth).block? (some name) = some f.2 := by
        rw [Scan.block?, blockIn?, hf]
        rfl
      rw [hblock, block?_scanWithDepth hblock]

/-- the numbered lines of a block that the source has are the lines placed in it, as far as its text goes -/
theorem rawLine?_eq_some_iff {source : List Char} {depth n r : Nat} {file : Option String} :
    (scanWithDepth source depth).rawLine? file n = some r ↔
      (∀ name, file = some name → name ∈ fileNames (placedLines source)) ∧
        ∃ i, n = i + 1 ∧ (blockOf file (placedLines source)).rawLines[i]? = some r := by
  cases n with
  | zero =>
    have hnone : (scanWithDepth source depth).rawLine? file 0 = none := by
      unfold Scan.rawLine?
      dsimp only
      split <;> rfl
    simp [hnone]
  | succ i =>
    rw [Scan.rawLine?_eq, Option.bind_eq_some_iff]
    constructor
    · rintro ⟨b, hb, hr⟩
      obtain ⟨hknown, rfl⟩ := block?_eq_some_iff.1 hb
      exact ⟨hknown, i, rfl, hr⟩
    · rintro ⟨hknown, i', hi, hr⟩
      obtain rfl := Nat.add_right_cancel hi
      exact ⟨_, block?_eq_some_iff.2 ⟨hknown, rfl⟩, hr⟩

/-- a numbered line of a block is placed in that block -/
theorem placement_of_rawLine? {source : List Char} {depth n r : Nat} {file : Option String}
    (h : (scanWithDepth source depth).rawLine? file n = some (r + 1)) :
    ∃ line, (blockLines source)[r]? = some line ∧
      placement (openAfter none ((blockLines source).take r)) line = .content file := by
  obtain ⟨-, i, -, hi⟩ := rawLine?_eq_some_iff.1 h
  exact mem_numbersOf.1 (List.mem_of_getElem? (rawLines_getElem?.1 hi).2)

/-- a line has one number, and lines of a block are numbered in order -/
theorem rawLine?_lt {source : List Char} {depth i j r q : Nat} {file : Option String} (hij : i < j)
    (hr : (scanWithDepth source depth).rawLine? file i = some r)
    (hq : (scanWithDepth source depth).rawLine? file j = some q) : r < q := by
  obtain ⟨-, i, rfl, hi⟩ := rawLine?_eq_some_iff.1 hr
  obtain ⟨-, j, rfl, hj⟩ := rawLine?_eq_some_iff.1 hq
  obtain ⟨hi', hri⟩ := List.getElem?_eq_some_iff.1 (rawLines_getElem?.1 hi).2
  obtain ⟨hj', hrj⟩ := List.getElem?_eq_some_iff.1 (rawLines_getElem?.1 hj).2
  rw [← hri, ← hrj]
  exact List.pairwise_iff_getElem.1 (numbersOf_strict file source) i j hi' hj' (Nat.lt_of_succ_lt_succ hij)

/-- a line that is placed in no block has no number -/
theorem rawLine?_ne_of_placement {source line : List Char} {depth r : Nat} (hline : (blockLines source)[r]? = some line)
    (hplace : ∀ file, placement (openAfter none ((blockLines source).take r)) line ≠ .content file)
    (file : Option String) (n : Nat) : (scanWithDepth source depth).rawLine? file n ≠ some (r + 1) := by
  intro h
  obtain ⟨line', hline', hcontent⟩ := placement_of_rawLine? h
  obtain rfl := Option.some.inj (hline'.symm.trans hline)
  exact hplace file hcontent

/-- a line that is placed in a block and is not blank has one number in one block -/
theorem existsUnique_rawLine? {source line : List Char} {depth r : Nat} (hline : (blockLines source)[r]? = some line)
    (hsolid : ∃ c ∈ line, isBlank c = false)
    (hplace : placement (openAfter none ((blockLines source).take r)) line =
      .content (openAfter none ((blockLines source).take r))) :
    ∃! p : Option String × Nat, (scanWithDepth source depth).rawLine? p.1 p.2 = some (r + 1) := by
  obtain ⟨i, hi⟩ := exists_index_of_placed hline hplace hsolid
  set file := openAfter none ((blockLines source).take r)
  have hknown : ∀ name, file = some name → name ∈ fileNames (placedLines source) := by
    intro name hname
    exact mem_fileNames_of_openAfter (List.getElem?_eq_some_iff.1 hline).1.le hname
  have hnumber : (scanWithDepth source depth).rawLine? file (i + 1) = some (r + 1) :=
    rawLine?_eq_some_iff.2 ⟨hknown, i, rfl, hi⟩
  refine ⟨(file, i + 1), hnumber, ?_⟩
  rintro ⟨other, n⟩ hother
  obtain ⟨line', -, hcontent⟩ := placement_of_rawLine? hother
  obtain rfl := eq_of_placement_content hcontent
  rcases Nat.lt_trichotomy n (i + 1) with hlt | rfl | hlt
  · exact absurd (rawLine?_lt hlt hother hnumber) (Nat.lt_irrefl _)
  · rfl
  · exact absurd (rawLine?_lt hlt hnumber hother) (Nat.lt_irrefl _)

/-- the numbers of a block are those of the lines of its text -/
theorem rawLine?_isSome_iff {source : List Char} {depth n : Nat} {file : Option String} :
    ((scanWithDepth source depth).rawLine? file n).isSome ↔
      ∃ b, (scanWithDepth source depth).block? file = some b ∧ 1 ≤ n ∧ n ≤ (blockLines b.text).length := by
  rw [Option.isSome_iff_exists]
  constructor
  · rintro ⟨r, hr⟩
    obtain ⟨hknown, i, rfl, hi⟩ := rawLine?_eq_some_iff.1 hr
    exact ⟨_, block?_eq_some_iff.2 ⟨hknown, rfl⟩, by omega, (rawLines_getElem?.1 hi).1⟩
  · rintro ⟨b, hb, hn, hlen⟩
    obtain ⟨hknown, rfl⟩ := block?_eq_some_iff.1 hb
    have hlt : n - 1 < (blockLines (blockOf file (placedLines source)).text).length := by omega
    obtain ⟨r, hr⟩ := exists_rawLine hlt
    exact ⟨r, rawLine?_eq_some_iff.2 ⟨hknown, n - 1, by omega, hr⟩⟩

/-- a scan of a source in whose blocks no line of the source is lost, and none stands twice -/
structure FaithfulSplit (source : List Char) (s : Scan) : Prop where
  /-- a line that is not blank opens a file and stands in no block, or ends the open file and stands in no block, or is
  neither and stands in one block, once -/
  once : ∀ r line, (blockLines source)[r]? = some line → (∃ c ∈ line, isBlank c = false) →
    ((opened? line).isSome ∧ ¬EndsFile (blockLines source) r ∧ ∀ file n, s.rawLine? file n ≠ some (r + 1)) ∨
    (opened? line = none ∧ EndsFile (blockLines source) r ∧ ∀ file n, s.rawLine? file n ≠ some (r + 1)) ∨
    (opened? line = none ∧ ¬EndsFile (blockLines source) r ∧
      ∃! p : Option String × Nat, s.rawLine? p.1 p.2 = some (r + 1))
  /-- a line stands in the block of the file that is open before it, or in the main block if none is -/
  inOpenFile : ∀ file n r, s.rawLine? file n = some (r + 1) →
    ∀ name, file = some name ↔ OpenAt (blockLines source) r name
  /-- the numbered lines of a block are those of its text -/
  numbered : ∀ file n, (s.rawLine? file n).isSome ↔ ∃ b, s.block? file = some b ∧ 1 ≤ n ∧ n ≤ (blockLines b.text).length
  /-- and they come in the order of the source -/
  increasing : ∀ file i j r q, i < j → s.rawLine? file i = some r → s.rawLine? file j = some q → r < q
  /-- the files are those that some line opens -/
  files : ∀ name, name ∈ s.files.map Prod.fst ↔ ∃ line ∈ blockLines source, opened? line = some name
  /-- each is listed once, in the order of their first markers -/
  order : (s.files.map Prod.fst).Pairwise fun a b =>
    firstMarker (blockLines source) a < firstMarker (blockLines source) b

/-- **No line is lost, and none stands twice.** For every source and every depth, a line that is not blank is a marker
that opens a file, or one that ends the open file, or it is numbered in one block, once; blocks are numbered from their
first line to the last in the order of the source; and the files are listed once each, in the order in which they were
opened first. -/
theorem scan_split (source : List Char) (depth : Nat) : FaithfulSplit source (scanWithDepth source depth) where
  once := by
    intro r line hline hsolid
    cases hopened : opened? line with
    | some name =>
      refine .inl ⟨rfl, ?_, rawLine?_ne_of_placement hline ?_⟩
      · simp [endsFile_iff hline, isEnd_of_opened? hopened]
      · simp [placement_of_opened? hopened]
    | none =>
      have hplace := placement_of_not_opened? hopened (openAfter none ((blockLines source).take r))
      by_cases hends : EndsFile (blockLines source) r
      · rw [if_pos ((endsFile_iff hline).1 hends)] at hplace
        exact .inr (.inl ⟨rfl, hends, rawLine?_ne_of_placement hline (by simp [hplace])⟩)
      · rw [if_neg fun h => hends ((endsFile_iff hline).2 h)] at hplace
        exact .inr (.inr ⟨rfl, hends, existsUnique_rawLine? hline hsolid hplace⟩)
  inOpenFile := by
    intro file n r h name
    obtain ⟨line, hline, hplace⟩ := placement_of_rawLine? h
    rw [← openAfter_eq_some_iff (List.getElem?_eq_some_iff.1 hline).1.le, eq_of_placement_content hplace]
  numbered := fun _ _ => rawLine?_isSome_iff
  increasing := fun _ _ _ _ _ hij hr hq => rawLine?_lt hij hr hq
  files := by
    intro name
    rw [map_fst_files, mem_fileNames]
  order := by
    rw [map_fst_files]
    exact fileNames_firstMarker source

end TsxWorkbench.Files
