/-
Names of files, as they are declared and as they are asked for. A marker takes whatever stands after it for a name,
less the blanks around it; an import line reads a name up to the first blank, quote or semicolon.

- `opened?_ne_nil`: a marker with a name has some character in it.
- `importable_of_importTarget?`: what an import line asks for holds no blank, quote or semicolon.
- `importTarget?_importLine`: every such name is asked for by the plain import line.
- `declared_importable`: a declared file can be imported, in a scan and on every branch where it is not open, if and only
  if its name holds none of these characters.
-/
import TsxWorkbench.Proofs.Files.Expansion
import TsxWorkbench.Proofs.Files.Splitting

namespace TsxWorkbench.Files

open Text

/-- a name that an import line can hold: without blanks, quotes and semicolons -/
def Importable (name : List Char) : Prop := ∀ c ∈ name, isBlank c = false ∧ c ≠ '\x22' ∧ c ≠ '\'' ∧ c ≠ ';'

/-- the plain line that imports a file -/
def importLine (name : List Char) : List Char := "// @import ".toList ++ name

variable {line name asked : List Char}

theorem importable_iff : Importable name ↔ ∀ c ∈ name, isNameChar c = true := by
  simp [Importable, isNameChar, and_assoc]

/-! ## Names of markers -/

/-- a marker with a name has some character in it -/
theorem opened?_ne_nil {opened : String} (h : opened? line = some opened) : opened.toList ≠ [] := by
  unfold opened? at h
  split at h
  · rename_i c rest _
    dsimp only at h
    split at h
    · rename_i hname
      cases h
      simpa using (Bool.and_eq_true_iff.1 hname).2
    · cases h
  · cases h

/-! ## Names of imports -/

/-- what an import line asks for is a name that it can hold -/
theorem importable_of_importTarget? (h : importTarget? line = some name) : Importable name := by
  rw [importable_iff]
  unfold importTarget? at h
  dsimp only at h
  split at h
  · split at h
    · split at h
      · cases h
        exact fun c hc => List.mem_takeWhile_imp hc
      · cases h
    · cases h
  · cases h

/-- what stands between the import word and the end of a plain import line -/
theorem stripStart?_importLine (name : List Char) :
    stripStart? "@import".toList ((afterSlashes? (importLine name)).getD (trimStart (importLine name))) =
      some (' ' :: name) := by
  have hslashes : stripStart? "//".toList (importLine name) = some (" @import ".toList ++ name) :=
    stripStart?_eq_some_iff.2 rfl
  have hstart : trimStart (importLine name) = importLine name := rfl
  have hword : trimStart (" @import ".toList ++ name) = "@import ".toList ++ name := rfl
  rw [afterSlashes?, hstart, hslashes, Option.map_some, Option.getD_some, hword]
  exact stripStart?_eq_some_iff.2 rfl

/-- **The plain import line.** Every name that an import line can hold is asked for in this form. -/
theorem importTarget?_importLine (hne : name ≠ []) (h : Importable name) :
    importTarget? (importLine name) = some name := by
  have hchars := importable_iff.1 h
  have hall : name.takeWhile isNameChar = name := List.takeWhile_eq_self_iff.2 hchars
  have hnone : name.dropWhile isNameChar = [] := List.dropWhile_eq_nil_iff.2 hchars
  have hstart : dropQuote (trimStart name) = name := by
    cases name with
    | nil => rfl
    | cons c rest =>
      obtain ⟨hblank, hdouble, hsingle, -⟩ := h c List.mem_cons_self
      rw [trimStart, List.dropWhile_cons_of_neg (by simp [hblank])]
      exact if_neg (not_or.2 ⟨hdouble, hsingle⟩)
  unfold importTarget?
  dsimp only
  rw [stripStart?_importLine]
  dsimp only
  rw [if_pos (by decide), hstart, hall, hnone]
  simp [hne, dropQuote, trimStart, dropSemicolon]

/-! ## Imports in a scan -/

/-- the file that a scan has for a name that some line of the source declares -/
theorem find?_files {source : List Char} {opened : String} (hline : line ∈ blockLines source)
    (h : opened? line = some opened) (depth : Nat) :
    ∃ block, (scanWithDepth source depth).files.find? (fun f => f.1 == opened) = some (opened, block) := by
  have hmem : opened ∈ (scanWithDepth source depth).files.map Prod.fst := by
    rw [map_fst_files]
    exact mem_fileNames.2 ⟨line, hline, h⟩
  obtain ⟨file, hfile, hname⟩ := List.mem_map.1 hmem
  cases hfound : (scanWithDepth source depth).files.find? fun f => f.1 == opened with
  | none => exact absurd (List.find?_eq_none.1 hfound file hfile) (by simp [hname])
  | some f =>
    have hname : f.1 = opened := by simpa using List.find?_some hfound
    exact ⟨f.2, by rw [← hname]⟩

/-- a line imports the file that it asks for, if that is not open -/
theorem importable?_eq_some_iff {files : List (String × Block)} {branch : List String} {opened : String}
    {block : Block} : importable? files branch asked = some (opened, block) ↔
      importTarget? asked = some opened.toList ∧ files.find? (fun f => f.1 == opened) = some (opened, block) ∧
        opened ∉ branch := by
  rw [importable?_eq, Option.filter_eq_some_iff, importOf?, Option.bind_eq_some_iff]
  constructor
  · rintro ⟨⟨target, htarget, hfound⟩, hopens⟩
    obtain rfl : opened = String.ofList target := by simpa using List.find?_some hfound
    exact ⟨by rw [htarget, String.toList_ofList], hfound, by simpa using hopens⟩
  · rintro ⟨htarget, hfound, hopens⟩
    exact ⟨⟨opened.toList, htarget, by rw [String.ofList_toList]; exact hfound⟩, by simpa using hopens⟩

/-- **Imports of declared files.** For every line that declares a file: the plain import line of its name asks for it if
and only if the name holds no blank, quote or semicolon, and otherwise no line does. In every source with that line and on
every branch of its scan, the file is imported by the plain line, or by any line at all, exactly if the name is such and
the file is not open on the branch already. -/
theorem declared_importable {opened : String} (h : opened? line = some opened) :
    (importTarget? (importLine opened.toList) = some opened.toList ↔ Importable opened.toList) ∧
    ((∃ asked, importTarget? asked = some opened.toList) ↔ Importable opened.toList) ∧
    ∀ source depth branch, line ∈ blockLines source → ∃ block,
      (importable? (scanWithDepth source depth).files branch (importLine opened.toList) = some (opened, block) ↔
        Importable opened.toList ∧ opened ∉ branch) ∧
      ((∃ asked, importable? (scanWithDepth source depth).files branch asked = some (opened, block)) ↔
        Importable opened.toList ∧ opened ∉ branch) := by
  have hplain : Importable opened.toList → importTarget? (importLine opened.toList) = some opened.toList :=
    importTarget?_importLine (opened?_ne_nil h)
  refine ⟨⟨importable_of_importTarget?, hplain⟩, ⟨?_, fun hname => ⟨_, hplain hname⟩⟩, ?_⟩
  · rintro ⟨asked, hasked⟩
    exact importable_of_importTarget? hasked
  · intro source depth branch hline
    obtain ⟨block, hfound⟩ := find?_files hline h depth
    have hfollowed : Importable opened.toList ∧ opened ∉ branch →
        importable? (scanWithDepth source depth).files branch (importLine opened.toList) = some (opened, block) :=
      fun ⟨hname, hopens⟩ => importable?_eq_some_iff.2 ⟨hplain hname, hfound, hopens⟩
    have hneeds {asked : List Char}
        (himport : importable? (scanWithDepth source depth).files branch asked = some (opened, block)) :
        Importable opened.toList ∧ opened ∉ branch := by
      obtain ⟨htarget, -, hopens⟩ := importable?_eq_some_iff.1 himport
      exact ⟨importable_of_importTarget? htarget, hopens⟩
    exact ⟨block, ⟨hneeds, hfollowed⟩, fun ⟨_, himport⟩ => hneeds himport, fun hname => ⟨_, hfollowed hname⟩⟩

/-- a file with a directory in its name, declared with blanks around it -/
def directorySource : List Char := "  //@snippet-file \t shared/ui  \nx".toList

theorem declared_importable_directory :
    importTarget? (importLine "shared/ui".toList) = some "shared/ui".toList ∧
      ∃ block, importable? (scanWithDepth directorySource 1).files ["app"] (importLine "shared/ui".toList) =
        some ("shared/ui", block) := by
  have hopened : opened? "  //@snippet-file \t shared/ui  ".toList = some "shared/ui" := by decide +kernel
  have hchars : ("shared/ui".toList.all isNameChar) = true := by decide +kernel
  have hname : Importable "shared/ui".toList := importable_iff.2 (List.all_eq_true.1 hchars)
  obtain ⟨hplain, -, hscan⟩ := declared_importable hopened
  obtain ⟨block, himport, -⟩ := hscan directorySource 1 ["app"] (by decide +kernel)
  exact ⟨hplain.2 hname, block, himport.2 ⟨hname, by decide⟩⟩

/-- **A declared file that nothing imports.** Its name holds a blank: the marker takes it, and the import line of that
name asks for no file and stays in the expansion. A quote or a semicolon around a name is declared as a part of it, but
asked for without it. -/
theorem spaced_name_not_imported :
    (opened? "// @snippet-file my file".toList = some "my file" ∧
      importTarget? "// @import my file".toList = none ∧
      (scan "// @snippet-file my file\nx\n// @snippet-file-end\n// @import my file".toList).expandedSource =
        "// @import my file".toList) ∧
    (opened? "// @snippet-file 'ui'".toList = some "'ui'" ∧
      importTarget? "// @import 'ui'".toList = some "ui".toList) ∧
    opened? "// @snippet-file ui;".toList = some "ui;" ∧ importTarget? "// @import ui;".toList = some "ui".toList := by
  decide +kernel

end TsxWorkbench.Files
