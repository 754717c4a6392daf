/-
Imports. The expansion of a source follows the import lines of its blocks; an import that it does not follow is left
as it is. `Expansion` says what lines become under a rule for the imports that stay, and keeps with each line the
branch that leads to it, the files that are open around it, the innermost first.

- `Expansion.unique`: lines have one expansion.
- `Expansion.mem_iff`: it holds the lines of the blocks that followed imports lead to, less the imports followed.
- `Expansion.congr`: rules that agree wherever imports lead have the same expansion.
- `expansion_expand`: in a scan an import stays if its file is open on the branch, or if the branch is as long as the
  scan may go deep.
- `imports_expanded`: how far a scan goes. A depth of as many levels as there are files is enough, since no file is
  open twice on a branch; without cycles every import is followed then, and none is left.
-/
import Mathlib.Data.List.Perm.Subperm
import Mathlib.Logic.Relation
import TsxWorkbench.Proofs.Files.LineMap
import TsxWorkbench.Proofs.Files.Marker

namespace TsxWorkbench.Files

open Text

variable {files : List (String × Block)} {main block : Block} {branch : List String} {lines : List OriginLine}
  {out : List (List String × OriginLine)} {stays stays' : List String → String → Prop}

/-! ## Imports -/

/-- the declared file that a line imports -/
def importOf? (files : List (String × Block)) (line : List Char) : Option (String × Block) :=
  (importTarget? line).bind fun target => files.find? fun f => f.1 == String.ofList target

theorem mem_of_importOf? {line : List Char} {f : String × Block} (h : importOf? files line = some f) : f ∈ files := by
  obtain ⟨target, -, hfound⟩ := Option.bind_eq_some_iff.1 h
  exact List.mem_of_find?_eq_some hfound

theorem importOf?_trimEnd (files : List (String × Block)) (line : List Char) :
    importOf? files (trimEnd line) = importOf? files line := by
  rw [importOf?, importTarget?_trimEnd]
  rfl

/-- an import is followed unless its file is open -/
theorem importable?_eq (files : List (String × Block)) (branch : List String) (line : List Char) :
    importable? files branch line = (importOf? files line).filter fun f => !branch.contains f.1 := by
  unfold importable? importOf?
  cases importTarget? line with
  | none => rfl
  | some target =>
    rw [Option.bind_some]
    dsimp only
    cases files.find? fun f => f.1 == String.ofList target with
    | none => rfl
    | some f => cases hopen : branch.contains f.1 <;> simp [Option.filter]

/-- lines of a block with their places in it -/
def originLines (file : Option String) (text : List Char) : List OriginLine :=
  ((blockLines text).zipIdx 1).map fun (line, n) => ⟨file, n, line⟩

theorem text_of_mem_originLines {file : Option String} {text : List Char} {o : OriginLine}
    (h : o ∈ originLines file text) : o.text ∈ blockLines text := by
  obtain ⟨⟨line, n⟩, hmem, rfl⟩ := List.mem_map.1 h
  exact List.fst_mem_of_mem_zipIdx hmem

theorem exists_mem_originLines {text line : List Char} (file : Option String) (h : line ∈ blockLines text) :
    ∃ o ∈ originLines file text, o.text = line := by
  obtain ⟨i, hi⟩ := List.mem_iff_getElem?.1 h
  refine ⟨⟨file, i + 1, line⟩, List.mem_map.2 ⟨(line, i + 1), ?_, rfl⟩, rfl⟩
  exact List.mk_mem_zipIdx_iff_le_and_getElem?_sub.2 ⟨Nat.le_add_left 1 i, hi⟩

/-! ## Expansions -/

/-- what lines on a branch become: an import of a declared file stays if the rule says so, and stands for the lines of
its file otherwise; all other lines are kept -/
inductive Expansion (files : List (String × Block)) (stays : List String → String → Prop) :
    List String → List OriginLine → List (List String × OriginLine) → Prop
  | done (branch : List String) : Expansion files stays branch [] []
  | kept {branch : List String} {o : OriginLine} {rest : List OriginLine} {out : List (List String × OriginLine)}
      (hstays : ∀ f ∈ importOf? files o.text, stays branch f.1) (hrest : Expansion files stays branch rest out) :
      Expansion files stays branch (o :: rest) ((branch, o) :: out)
  | followed {branch : List String} {o : OriginLine} {rest : List OriginLine} {f : String × Block}
      {inner out : List (List String × OriginLine)} (himport : importOf? files o.text = some f)
      (hopens : ¬stays branch f.1)
      (hinner : Expansion files stays (f.1 :: branch) (originLines (some f.1) f.2.text) inner)
      (hrest : Expansion files stays branch rest out) :
      Expansion files stays branch (o :: rest) (inner ++ out)

/-- text of an expansion, without blanks at its end -/
def expansionText (out : List (List String × OriginLine)) : List Char :=
  trimEnd (joinLines (out.map fun p => p.2.text))

/-- a branch of imports that are followed, with the block that it leads to -/
inductive OpenPath (files : List (String × Block)) (stays : List String → String → Prop) (main : Block) :
    List String → Block → Prop
  | main : OpenPath files stays main [] main
  | followed {branch : List String} {block : Block} {line : List Char} {f : String × Block}
      (hpath : OpenPath files stays main branch block) (hline : line ∈ blockLines block.text)
      (himport : importOf? files line = some f) (hopens : ¬stays branch f.1) :
      OpenPath files stays main (f.1 :: branch) f.2

/-- a branch of imports, whatever is open on it -/
def ImportPath (files : List (String × Block)) : Block → List String → Block → Prop :=
  OpenPath files fun _ _ => False

namespace Expansion

/-- lines have one expansion -/
theorem unique {out' : List (List String × OriginLine)} (h : Expansion files stays branch lines out)
    (h' : Expansion files stays branch lines out') : out = out' := by
  induction h generalizing out' with
  | done branch =>
    cases h'
    rfl
  | kept hstays _ ih =>
    cases h' with
    | kept _ hrest => rw [ih hrest]
    | followed himport hopens => exact absurd (hstays _ himport) hopens
  | followed himport hopens _ _ ihinner ih =>
    cases h' with
    | kept hstays => exact absurd (hstays _ himport) hopens
    | followed himport' _ hinner hrest =>
      obtain rfl := Option.some.inj (himport.symm.trans himport')
      rw [ihinner hinner, ih hrest]

/-- where every import stays, lines are their own expansion -/
theorem of_stays (h : ∀ o ∈ lines, ∀ f ∈ importOf? files o.text, stays branch f.1) :
    Expansion files stays branch lines (lines.map fun o => (branch, o)) := by
  induction lines with
  | nil => exact .done branch
  | cons o rest ih =>
    rw [List.forall_mem_cons] at h
    exact .kept h.1 (ih h.2)

/-- rules that agree on all imports that are met have the same expansion -/
theorem congr (hagree : ∀ branch block, OpenPath files stays main branch block → ∀ line ∈ blockLines block.text,
      ∀ f ∈ importOf? files line, (stays branch f.1 ↔ stays' branch f.1))
    (hpath : OpenPath files stays main branch block) (hlines : ∀ o ∈ lines, o.text ∈ blockLines block.text)
    (h : Expansion files stays branch lines out) : Expansion files stays' branch lines out := by
  induction h generalizing block with
  | done branch => exact .done branch
  | kept hstays _ ih =>
    rw [List.forall_mem_cons] at hlines
    have hagreed := hagree _ _ hpath _ hlines.1
    exact .kept (fun f hf => (hagreed f hf).1 (hstays f hf)) (ih hpath hlines.2)
  | followed himport hopens _ _ ihinner ih =>
    rw [List.forall_mem_cons] at hlines
    have hagreed := hagree _ _ hpath _ hlines.1 _ himport
    have hinner := ihinner (.followed hpath hlines.1 himport hopens) fun _ => text_of_mem_originLines
    exact .followed himport (mt hagreed.2 hopens) hinner (ih hpath hlines.2)

/-! ### What stands in an expansion -/

/-- a line of an expansion is a line of a block that followed imports lead to, and it is no such import itself -/
theorem openPath_of_mem (hpath : OpenPath files stays main branch block)
    (hlines : ∀ o ∈ lines, o ∈ originLines branch.head? block.text) (h : Expansion files stays branch lines out) :
    ∀ p ∈ out, ∃ block, OpenPath files stays main p.1 block ∧ p.2 ∈ originLines p.1.head? block.text ∧
      ∀ f ∈ importOf? files p.2.text, stays p.1 f.1 := by
  induction h generalizing block with
  | done branch => simp
  | kept hstays _ ih =>
    rw [List.forall_mem_cons] at hlines ⊢
    exact ⟨⟨block, hpath, hlines.1, hstays⟩, ih hpath hlines.2⟩
  | followed himport hopens _ _ ihinner ih =>
    rw [List.forall_mem_cons] at hlines
    rw [List.forall_mem_append]
    have hline := text_of_mem_originLines hlines.1
    exact ⟨ihinner (.followed hpath hline himport hopens) fun _ ho => ho, ih hpath hlines.2⟩

theorem mem_of_stays (h : Expansion files stays branch lines out) {o : OriginLine} (ho : o ∈ lines)
    (hstays : ∀ f ∈ importOf? files o.text, stays branch f.1) : (branch, o) ∈ out := by
  induction h with
  | done branch => cases ho
  | kept _ _ ih =>
    rcases List.mem_cons.1 ho with rfl | ho
    · exact List.mem_cons_self
    · exact List.mem_cons_of_mem _ (ih ho hstays)
  | followed himport hopens _ _ _ ih =>
    rcases List.mem_cons.1 ho with rfl | ho
    · exact absurd (hstays _ himport) hopens
    · exact List.mem_append_right _ (ih ho hstays)

/-- the expansion of a file stands in the place of every import of it that is followed -/
theorem exists_inner (h : Expansion files stays branch lines out) {o : OriginLine} (ho : o ∈ lines)
    {f : String × Block} (himport : importOf? files o.text = some f) (hopens : ¬stays branch f.1) :
    ∃ inner, Expansion files stays (f.1 :: branch) (originLines (some f.1) f.2.text) inner ∧ inner ⊆ out := by
  induction h with
  | done branch => cases ho
  | kept hstays _ ih =>
    rcases List.mem_cons.1 ho with rfl | ho
    · exact absurd (hstays f himport) hopens
    · obtain ⟨inner, hinner, hsub⟩ := ih ho hopens
      exact ⟨inner, hinner, List.subset_cons_of_subset _ hsub⟩
  | followed himport' _ hinner _ _ ih =>
    rcases List.mem_cons.1 ho with rfl | ho
    · obtain rfl := Option.some.inj (himport'.symm.trans himport)
      exact ⟨_, hinner, List.subset_append_left _ _⟩
    · obtain ⟨inner, hinner, hsub⟩ := ih ho hopens
      exact ⟨inner, hinner, List.subset_append_of_subset_right _ hsub⟩

/-- every block that followed imports lead to is expanded -/
theorem exists_of_openPath (h : Expansion files stays [] (originLines none main.text) out)
    (hpath : OpenPath files stays main branch block) :
    ∃ inner, Expansion files stays branch (originLines branch.head? block.text) inner ∧ inner ⊆ out := by
  induction hpath with
  | main => exact ⟨out, h, List.Subset.refl out⟩
  | followed _ hline himport hopens ih =>
    obtain ⟨outer, houter, hsub⟩ := ih
    obtain ⟨o, ho, rfl⟩ := exists_mem_originLines _ hline
    obtain ⟨inner, hinner, hinside⟩ := houter.exists_inner ho himport hopens
    exact ⟨inner, hinner, List.Subset.trans hinside hsub⟩

/-- **What an expansion holds.** A line stands in it on a branch if the imports of the branch are followed, if it is a
line of the block that they lead to, and if it stays in case that it is an import itself. -/
theorem mem_iff (h : Expansion files stays [] (originLines none main.text) out) {o : OriginLine} :
    (branch, o) ∈ out ↔ ∃ block, OpenPath files stays main branch block ∧ o ∈ originLines branch.head? block.text ∧
      ∀ f ∈ importOf? files o.text, stays branch f.1 := by
  constructor
  · intro hmem
    exact h.openPath_of_mem .main (fun _ ho => ho) _ hmem
  · rintro ⟨block, hpath, ho, hstays⟩
    obtain ⟨inner, hinner, hsub⟩ := h.exists_of_openPath hpath
    exact hsub (hinner.mem_of_stays ho hstays)

end Expansion

/-! ## Scans -/

/-- the imports that a scan leaves: those of files that are open on the branch, and all at the end of a branch that is
as long as may be -/
def Stopped (limit : Nat) (branch : List String) (name : String) : Prop := name ∈ branch ∨ branch.length = limit

theorem expand_succ (files : List (String × Block)) (depth : Nat) (branch : List String) (file : Option String)
    (text : List Char) : expand files (depth + 1) branch file text = (originLines file text).flatMap fun o =>
      match importable? files branch o.text with
      | some f => expand files depth (f.1 :: branch) (some f.1) f.2.text
      | none => [o] := by
  rw [expand, originLines, List.flatMap_map]
  refine List.flatMap_congr fun ⟨line, n⟩ _ => ?_
  dsimp only
  cases importable? files branch line <;> rfl

/-- a scan that has so many levels left makes the expansion in which imports stay as the rule of its depth says -/
theorem expansion_expand {limit depth : Nat} (hlimit : depth + branch.length = limit) (file : Option String)
    (text : List Char) : ∃ out, Expansion files (Stopped limit) branch (originLines file text) out ∧
      out.map Prod.snd = expand files depth branch file text := by
  induction depth generalizing branch file text with
  | zero =>
    rw [Nat.zero_add] at hlimit
    refine ⟨_, .of_stays fun o _ f _ => .inr hlimit, ?_⟩
    rw [List.map_map]
    exact List.map_id _
  | succ depth ih =>
    rw [expand_succ]
    induction originLines file text with
    | nil => exact ⟨[], .done branch, rfl⟩
    | cons o rest ihrest =>
      obtain ⟨out, hout, hlines⟩ := ihrest
      rw [List.flatMap_cons, ← hlines, importable?_eq]
      by_cases hstays : ∀ f ∈ importOf? files o.text, f.1 ∈ branch
      · have hnone : ((importOf? files o.text).filter fun f => !branch.contains f.1) = none := by
          rw [Option.filter_eq_none_iff]
          intro f hf
          simpa using hstays f hf
        rw [hnone]
        exact ⟨_, .kept (fun f hf => .inl (hstays f hf)) hout, rfl⟩
      · push Not at hstays
        obtain ⟨f, himport, hopens⟩ := hstays
        have hsome : ((importOf? files o.text).filter fun f => !branch.contains f.1) = some f := by
          rw [Option.filter_eq_some_iff]
          exact ⟨himport, by simpa using hopens⟩
        rw [hsome]
        have hdeeper : depth + (f.1 :: branch).length = limit := by
          rw [List.length_cons]
          omega
        obtain ⟨inner, hinner, hfile⟩ := ih hdeeper (some f.1) f.2.text
        have hstopped : ¬Stopped limit branch f.1 := by
          rintro (hopen | hlong)
          · exact hopens hopen
          · omega
        exact ⟨inner ++ out, .followed himport hstopped hinner hout, by rw [List.map_append, hfile]⟩

/-- the lines of a scan with the branches that lead to them -/
theorem exists_expansion (source : List Char) (depth : Nat) :
    ∃ out, Expansion (scan source).files (Stopped depth) [] (originLines none (scan source).main.text) out ∧
      out.map Prod.snd = expandedLines source depth := by
  have hstart : depth + ([] : List String).length = depth := rfl
  exact expansion_expand hstart none _

theorem expandedSource_eq {source : List Char} {depth : Nat} (h : out.map Prod.snd = expandedLines source depth) :
    (scanWithDepth source depth).expandedSource = expansionText out := by
  have htexts : out.map (fun p => p.2.text) = (expandedLines source depth).map OriginLine.text := by
    rw [← h, List.map_map]
    rfl
  rw [expansionText, htexts]
  rfl

theorem scanWithDepth_congr {source : List Char} {depth depth' : Nat}
    (h : expandedLines source depth = expandedLines source depth') :
    scanWithDepth source depth = scanWithDepth source depth' := by
  have hexpand :
    expand ((fileNames (placedLines source)).map fun name => (name, blockOf (some name) (placedLines source)))
      depth [] none (blockOf none (placedLines source)).text =
    expand ((fileNames (placedLines source)).map fun name => (name, blockOf (some name) (placedLines source)))
      depth' [] none (blockOf none (placedLines source)).text := h
  unfold scanWithDepth
  dsimp only
  rw [hexpand]

/-! ## Branches -/

/-- the branches of a scan are the branches of imports that open no file twice and are not too long -/
theorem openPath_stopped_iff {limit : Nat} : OpenPath files (Stopped limit) main branch block ↔
    ImportPath files main branch block ∧ branch.Nodup ∧ branch.length ≤ limit := by
  constructor
  · intro h
    induction h with
    | main => exact ⟨.main, List.nodup_nil, Nat.zero_le limit⟩
    | followed _ hline himport hopens ih =>
      rw [Stopped, not_or] at hopens
      refine ⟨.followed ih.1 hline himport not_false, List.nodup_cons.2 ⟨hopens.1, ih.2.1⟩, ?_⟩
      rw [List.length_cons]
      omega
  · rintro ⟨hpath, hnodup, hlength⟩
    unfold ImportPath at hpath
    induction hpath with
    | main => exact .main
    | followed _ hline himport _ ih =>
      rw [List.nodup_cons] at hnodup
      rw [List.length_cons] at hlength
      refine .followed (ih hnodup.2 (by omega)) hline himport ?_
      rintro (hopen | hlong)
      · exact hnodup.1 hopen
      · omega

/-- files that are open are declared -/
theorem OpenPath.subset_files (h : OpenPath files stays main branch block) : branch ⊆ files.map Prod.fst := by
  induction h with
  | main => exact List.nil_subset _
  | followed _ _ himport _ ih => exact List.cons_subset.2 ⟨List.mem_map_of_mem (mem_of_importOf? himport), ih⟩

/-- **Depth.** A branch of a scan that a file may be opened on is shorter than there are files. -/
theorem OpenPath.length_lt {limit : Nat} (h : OpenPath files (Stopped limit) main branch block) {f : String × Block}
    (hf : f ∈ files) (hopens : f.1 ∉ branch) : branch.length < files.length := by
  have hnodup : (f.1 :: branch).Nodup := List.nodup_cons.2 ⟨hopens, (openPath_stopped_iff.1 h).2.1⟩
  have hsub : f.1 :: branch ⊆ files.map Prod.fst := List.cons_subset.2 ⟨List.mem_map_of_mem hf, h.subset_files⟩
  have hle := (hnodup.subperm hsub).length_le
  rwa [List.length_map] at hle

/-- if a scan may go as deep as there are files, only files that are open stop it -/
theorem stopped_iff_of_le {limit : Nat} (hlimit : files.length ≤ limit)
    (h : OpenPath files (Stopped limit) main branch block) {f : String × Block} (hf : f ∈ files) :
    Stopped limit branch f.1 ↔ f.1 ∈ branch := by
  constructor
  · rintro (hopen | hlong)
    · exact hopen
    · by_contra hopens
      have hlt := h.length_lt hf hopens
      omega
  · exact .inl

/-! ## Cycles -/

/-- a file with a line that imports another -/
def Imports (files : List (String × Block)) (a b : String) : Prop :=
  ∃ block, (a, block) ∈ files ∧ ∃ line ∈ blockLines block.text, ∃ f, importOf? files line = some f ∧ f.1 = b

/-- files without a cycle of imports -/
def Acyclic (files : List (String × Block)) : Prop := ∀ name, ¬Relation.TransGen (Imports files) name name

/-- every file on a branch leads to the one that is imported next -/
theorem OpenPath.leads (h : OpenPath files stays main branch block) {line : List Char}
    (hline : line ∈ blockLines block.text) {f : String × Block} (himport : importOf? files line = some f) :
    ∀ name ∈ branch, Relation.TransGen (Imports files) name f.1 := by
  induction h generalizing line f with
  | main => simp
  | followed _ hline' himport' _ ih =>
    rename_i g _ _
    have hnext : Imports files g.1 f.1 := ⟨g.2, mem_of_importOf? himport', line, hline, f, himport, rfl⟩
    rw [List.forall_mem_cons]
    exact ⟨.single hnext, fun name hname => (ih hline' himport' name hname).tail hnext⟩

/-- without cycles no import is one of a file that is open -/
theorem OpenPath.not_mem_of_acyclic (h : OpenPath files stays main branch block) (hacyclic : Acyclic files)
    {line : List Char} (hline : line ∈ blockLines block.text) {f : String × Block}
    (himport : importOf? files line = some f) : f.1 ∉ branch :=
  fun hmem => hacyclic f.1 (h.leads hline himport f.1 hmem)

/-! ## How far a scan goes -/

/-- a source whose imports are followed as far as they may be -/
structure ImportsExpanded (source : List Char) : Prop where
  /-- depths of at least as many levels as there are files make no difference -/
  saturated : ∀ depth depth', (scan source).files.length ≤ depth → (scan source).files.length ≤ depth' →
    scanWithDepth source depth = scanWithDepth source depth'
  /-- at such a depth and without cycles the expansion is the one in which every import of a declared file is followed,
  and none of its lines is such an import -/
  unfolded : ∀ depth, (scan source).files.length ≤ depth → Acyclic (scan source).files →
    (∃ out, Expansion (scan source).files (fun _ _ => False) [] (originLines none (scan source).main.text) out ∧
      (scanWithDepth source depth).expandedSource = expansionText out) ∧
    ∀ line ∈ blockLines (scanWithDepth source depth).expandedSource, importOf? (scan source).files line = none
  /-- at every depth the expansion is the one in which an import of a declared file stays if its file is open on the
  branch, or if the branch is as deep as allowed: it holds the lines of the blocks at the ends of all branches that open
  no file twice and are not deeper, but of the imports in them only these -/
  stopped : ∀ depth, ∃ out,
    Expansion (scan source).files (Stopped depth) [] (originLines none (scan source).main.text) out ∧
    (scanWithDepth source depth).expandedSource = expansionText out ∧
    ∀ branch o, (branch, o) ∈ out ↔ ∃ block, ImportPath (scan source).files (scan source).main branch block ∧
      branch.Nodup ∧ branch.length ≤ depth ∧ o ∈ originLines branch.head? block.text ∧
      ∀ f ∈ importOf? (scan source).files o.text, f.1 ∈ branch ∨ branch.length = depth

/-- the expansion of a scan that may go as deep as there are files -/
theorem exists_expansion_deep {source : List Char} {depth : Nat} (hdepth : (scan source).files.length ≤ depth) :
    ∃ out, Expansion (scan source).files (fun branch name => name ∈ branch) []
        (originLines none (scan source).main.text) out ∧
      out.map Prod.snd = expandedLines source depth := by
  obtain ⟨out, hout, hlines⟩ := exists_expansion source depth
  have hmain : OpenPath (scan source).files (Stopped depth) (scan source).main [] (scan source).main := .main
  refine ⟨out, hout.congr (fun branch block hpath line _ f himport => ?_) hmain ?_, hlines⟩
  · exact stopped_iff_of_le hdepth hpath (mem_of_importOf? himport)
  · exact fun _ => text_of_mem_originLines

/-- **Imports are expanded.** For every source, a scan is the same at all depths of at least as many levels as there
are files; without cycles of imports it is the full unfolding, and no import of a declared file is left; and at every
depth an import of a declared file is left if and only if the file is open on the branch or the branch is as deep as
allowed. -/
theorem imports_expanded (source : List Char) : ImportsExpanded source where
  saturated := by
    intro depth depth' hdepth hdepth'
    obtain ⟨out, hout, hlines⟩ := exists_expansion_deep hdepth
    obtain ⟨out', hout', hlines'⟩ := exists_expansion_deep hdepth'
    have hsame : expandedLines source depth = expandedLines source depth' := by
      rw [← hlines, ← hlines', hout.unique hout']
    exact scanWithDepth_congr hsame
  unfolded := by
    intro depth hdepth hacyclic
    obtain ⟨out, hout, hlines⟩ := exists_expansion_deep hdepth
    have hmain : OpenPath (scan source).files (fun branch name => name ∈ branch) (scan source).main []
      (scan source).main := .main
    have hfull : Expansion (scan source).files (fun _ _ => False) []
        (originLines none (scan source).main.text) out := by
      refine hout.congr (fun branch block hpath line hline f himport => ?_) hmain fun _ => text_of_mem_originLines
      exact iff_false_intro (hpath.not_mem_of_acyclic hacyclic hline himport)
    refine ⟨⟨out, hfull, expandedSource_eq hlines⟩, fun line hline => ?_⟩
    obtain ⟨i, hi⟩ := List.mem_iff_getElem?.1 hline
    obtain ⟨o, ho, htrim⟩ := expandedSource_line hi
    rw [← hlines] at ho
    obtain ⟨⟨branch, o⟩, hmem, rfl⟩ := List.mem_map.1 (List.mem_of_getElem? ho)
    obtain ⟨-, -, -, hstays⟩ := hfull.mem_iff.1 hmem
    have hnone : importOf? (scan source).files o.text = none :=
      Option.eq_none_iff_forall_not_mem.2 hstays
    rw [← importOf?_trimEnd, htrim, importOf?_trimEnd, hnone]
  stopped := by
    intro depth
    obtain ⟨out, hout, hlines⟩ := exists_expansion source depth
    refine ⟨out, hout, expandedSource_eq hlines, fun branch o => ?_⟩
    simp only [hout.mem_iff, openPath_stopped_iff, and_assoc]
    rfl

end TsxWorkbench.Files
