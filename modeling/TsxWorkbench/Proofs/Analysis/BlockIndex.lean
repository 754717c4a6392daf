/-
Indexes of the blocks of a source.
- `lookup_inspectBlocks`: what the list of indexes has for a name. A file that is a module comes first, then the main
  block, if the name is its own.
- `Scanned.run`, `Scanned.after`: a scan that a workbench keeps is that of its source, after any session and whether its
  backends load or not.
- `analyze_indexes`: the indexes in the report of a source are those of its blocks (`IndexedBlocks`).
- `main_index_replaced`: a file that has the name of the main block takes its place.
-/
import TsxWorkbench.Proofs.Files.Splitting
import TsxWorkbench.Proofs.State.History

namespace TsxWorkbench

open Text State Analysis

/-! ## Lists with keys -/

section

variable {α : Type}

theorem lookup_setKey (pairs : List (String × α)) (key : String) (a : α) (k : String) :
    (setKey pairs key a).lookup k = if k = key then some a else pairs.lookup k := by
  unfold setKey
  simp only [beq_iff_eq]
  split
  · rename_i hthere
    obtain ⟨p, hp, hkey⟩ := List.any_eq_true.1 hthere
    have hsome : (pairs.lookup key).isSome = true :=
      List.lookup_isSome_iff.2 ⟨p, hp, beq_iff_eq.2 (beq_iff_eq.1 hkey).symm⟩
    obtain ⟨old, hold⟩ := Option.isSome_iff_exists.1 hsome
    rw [lookup_replace, hold]
    rfl
  · rename_i hmissing
    rw [List.lookup_append]
    by_cases hk : k = key
    · subst hk
      have hnone : pairs.lookup k = none := by
        rw [List.lookup_eq_none_iff]
        intro p hp
        rw [bne_iff_ne]
        rintro rfl
        exact hmissing (List.any_eq_true.2 ⟨p, hp, BEq.rfl⟩)
      simp [hnone]
    · have hne : (k == key) = false := beq_eq_false_iff_ne.2 hk
      simp [List.lookup_cons, hne, hk]

/-- the last pair of a key that was set is the one that is found -/
theorem lookup_foldl_setKey (done pairs : List (String × α)) (k : String) :
    (pairs.foldl (fun done p => setKey done p.1 p.2) done).lookup k =
      (pairs.reverse.lookup k).or (done.lookup k) := by
  induction pairs generalizing done with
  | nil => rfl
  | cons p rest ih =>
    obtain ⟨key, a⟩ := p
    rw [List.foldl_cons, ih, List.reverse_cons, List.lookup_append, lookup_setKey, Option.or_assoc]
    by_cases hk : k = key
    · simp [hk]
    · have hne : (k == key) = false := beq_eq_false_iff_ne.2 hk
      simp [hk, List.lookup_cons, hne]

theorem mem_of_lookup {pairs : List (String × α)} {k : String} {a : α} (h : pairs.lookup k = some a) :
    (k, a) ∈ pairs := by
  obtain ⟨before, after, rfl, -⟩ := List.lookup_eq_some_iff.1 h
  exact List.mem_append_right _ List.mem_cons_self

theorem lookup_of_mem {pairs : List (String × α)} (h : (pairs.map Prod.fst).Nodup) {k : String} {a : α}
    (hmem : (k, a) ∈ pairs) : pairs.lookup k = some a := by
  obtain ⟨before, after, rfl⟩ := List.append_of_mem hmem
  refine List.lookup_eq_some_iff.2 ⟨before, after, rfl, fun p hp => ?_⟩
  rw [List.map_append, List.map_cons, List.nodup_append] at h
  exact bne_iff_ne.2 (h.2.2 p.1 (List.mem_map.2 ⟨p, hp, rfl⟩) k List.mem_cons_self).symm

theorem lookup_map_value {β : Type} (pairs : List (String × α)) (g : α → β) (k : String) :
    (pairs.map fun p => (p.1, g p.2)).lookup k = (pairs.lookup k).map g := by
  induction pairs with
  | nil => rfl
  | cons p rest ih =>
    obtain ⟨key, a⟩ := p
    rw [List.map_cons, List.lookup_cons, List.lookup_cons, ih]
    cases k == key <;> rfl

theorem setKey_nodup {pairs : List (String × α)} (h : (pairs.map Prod.fst).Nodup) (key : String) (a : α) :
    ((setKey pairs key a).map Prod.fst).Nodup := by
  unfold setKey
  simp only [beq_iff_eq]
  split
  · have hsame : (pairs.map fun p => if p.1 = key then (key, a) else p).map Prod.fst = pairs.map Prod.fst := by
      rw [List.map_map]
      apply List.map_congr_left
      intro p _
      by_cases hp : p.1 = key
      · simp [hp]
      · simp [hp]
    rw [hsame]
    exact h
  · rename_i hmissing
    rw [List.map_append, List.nodup_append]
    refine ⟨h, by simp, ?_⟩
    intro k hk other hother
    obtain ⟨p, hp, rfl⟩ := List.mem_map.1 hk
    rw [List.map_singleton, List.mem_singleton] at hother
    rintro rfl
    exact hmissing (List.any_eq_true.2 ⟨p, hp, beq_iff_eq.2 hother⟩)

theorem foldl_setKey_nodup (pairs : List (String × α)) {done : List (String × α)} (h : (done.map Prod.fst).Nodup) :
    ((pairs.foldl (fun done p => setKey done p.1 p.2) done).map Prod.fst).Nodup :=
  List.foldlRecOn (motive := fun done : List (String × α) => (done.map Prod.fst).Nodup) pairs _ h
    fun _ h p _ => setKey_nodup h p.1 p.2

end

/-! ## Blocks -/

/-- names of the files of a scan differ from one another -/
theorem nodup_files (source : List Char) (depth : Nat) :
    ((Files.scanWithDepth source depth).files.map Prod.fst).Nodup := by
  rw [Files.map_fst_files]
  exact nodup_eraseDups _

/-- indexes of the blocks that are modules -/
def blockIndexes (limit : Nat) (blocks : List (String × List Char)) : List (String × InspectIndex) :=
  blocks.filterMap fun b => (blockIndex? limit b.2).map fun index => (b.1, index)

theorem lookup_blockIndexes (limit : Nat) {blocks : List (String × List Char)} (h : (blocks.map Prod.fst).Nodup)
    (name : String) :
    (blockIndexes limit blocks).reverse.lookup name = (blocks.lookup name).bind (blockIndex? limit) := by
  unfold blockIndexes
  induction blocks with
  | nil => rfl
  | cons b rest ih =>
    obtain ⟨key, text⟩ := b
    rw [List.map_cons, List.nodup_cons] at h
    obtain ⟨hnew, hrest⟩ := h
    have hfirst : (rest.lookup key) = none := by
      rw [List.lookup_eq_none_iff]
      intro p hp
      rw [bne_iff_ne]
      rintro rfl
      exact hnew (List.mem_map.2 ⟨p, hp, rfl⟩)
    by_cases hname : name = key
    · subst hname
      rw [List.lookup_cons_self, Option.bind_some]
      cases hindex : blockIndex? limit text with
      | none =>
        rw [List.filterMap_cons_none (by rw [hindex]; rfl), ih hrest, hfirst]
        rfl
      | some index =>
        rw [List.filterMap_cons_some (by rw [hindex]; rfl), List.reverse_cons, List.lookup_append, ih hrest, hfirst]
        simp
    · have hne : (name == key) = false := beq_eq_false_iff_ne.2 hname
      rw [List.lookup_cons, hne]
      cases hindex : blockIndex? limit text with
      | none => rw [List.filterMap_cons_none (by rw [hindex]; rfl), ih hrest]
      | some index =>
        rw [List.filterMap_cons_some (by rw [hindex]; rfl), List.reverse_cons, List.lookup_append, ih hrest]
        simp [List.lookup_cons, hne]

/-- **Indexes by name.** A file that is a module comes first, then the main block under its own name. -/
theorem lookup_inspectBlocks (limit : Nat) {scan : Files.Scan} (h : (scan.files.map Prod.fst).Nodup) (name : String) :
    (inspectBlocks limit scan).lookup name =
      ((scan.files.lookup name).bind fun block => blockIndex? limit block.text).or
        (if name = mainBlockName then blockIndex? limit scan.main.text else none) := by
  have hfiles : ((scan.files.map fun f => (f.1, f.2.text)).map Prod.fst).Nodup := by
    rw [List.map_map]
    exact h
  have happend : blockIndexes limit ((mainBlockName, scan.main.text) :: scan.files.map fun f => (f.1, f.2.text)) =
      blockIndexes limit [(mainBlockName, scan.main.text)] ++
        blockIndexes limit (scan.files.map fun f => (f.1, f.2.text)) := by
    unfold blockIndexes
    rw [← List.filterMap_append]
    rfl
  calc (inspectBlocks limit scan).lookup name
    _ = ((blockIndexes limit ((mainBlockName, scan.main.text) ::
          scan.files.map fun f => (f.1, f.2.text))).reverse.lookup name).or (List.lookup name []) :=
        lookup_foldl_setKey [] _ name
    _ = ((blockIndexes limit (scan.files.map fun f => (f.1, f.2.text))).reverse.lookup name).or
          ((blockIndexes limit [(mainBlockName, scan.main.text)]).reverse.lookup name) := by
        rw [happend, List.reverse_append, List.lookup_append]
        exact Option.or_none
    _ = ((scan.files.lookup name).bind fun block => blockIndex? limit block.text).or
          (([(mainBlockName, scan.main.text)].lookup name).bind (blockIndex? limit)) := by
        rw [lookup_blockIndexes limit hfiles, lookup_blockIndexes limit (by simp), lookup_map_value, Option.bind_map]
        rfl
    _ = _ := by
        by_cases hname : name = mainBlockName
        · simp [hname]
        · have hne : (name == mainBlockName) = false := beq_eq_false_iff_ne.2 hname
          simp [List.lookup_cons, hname, hne]

/-- the indexes of the blocks of a scan: one for each block that is a module, under its name -/
structure IndexedBlocks (limit : Nat) (scan : Files.Scan) (indexes : List (String × InspectIndex)) : Prop where
  distinct : (indexes.map Prod.fst).Nodup
  /-- a file has its own index, whatever its name -/
  file : ∀ name block, (name, block) ∈ scan.files → ∀ index, blockIndex? limit block.text = some index →
    indexes.lookup name = some index
  /-- the main block has its own index, if no file that is a module has its name -/
  main : (∀ block, (mainBlockName, block) ∈ scan.files → blockIndex? limit block.text = none) →
    indexes.lookup mainBlockName = blockIndex? limit scan.main.text
  /-- nothing else has an index -/
  only : ∀ name, name ≠ mainBlockName →
    (∀ block, (name, block) ∈ scan.files → blockIndex? limit block.text = none) → indexes.lookup name = none

theorem indexedBlocks (limit : Nat) (source : List Char) (depth : Nat) :
    IndexedBlocks limit (Files.scanWithDepth source depth)
      (inspectBlocks limit (Files.scanWithDepth source depth)) := by
  have hdistinct := nodup_files source depth
  have hnone {name : String} (h : ∀ block, (name, block) ∈ (Files.scanWithDepth source depth).files →
      blockIndex? limit block.text = none) : (((Files.scanWithDepth source depth).files.lookup name).bind
        fun block => blockIndex? limit block.text) = none := by
    rw [Option.bind_eq_none_iff]
    exact fun block hblock => h block (mem_of_lookup hblock)
  refine ⟨foldl_setKey_nodup _ .nil, ?_, ?_, ?_⟩
  · intro name block hmem index hindex
    rw [lookup_inspectBlocks limit hdistinct, lookup_of_mem hdistinct hmem, Option.bind_some, hindex, Option.some_or]
  · intro hfile
    rw [lookup_inspectBlocks limit hdistinct, hnone hfile, if_pos rfl, Option.none_or]
  · intro name hname hfile
    rw [lookup_inspectBlocks limit hdistinct, hnone hfile, if_neg hname, Option.none_or]

/-! ## Sessions -/

namespace Workbench

variable {config : Config} {w : Workbench}

/-- a workbench that keeps its settings, and no scan but that of its source -/
structure Scanned (config : Config) (w : Workbench) : Prop where
  config_eq : w.config = config
  scans : w.scans.Holds fun source => Files.scanWithDepth source config.files.maxImportDepth

theorem scanned_withCompiler (config : Config) (factory : Nat → Attempt Compiler) :
    Scanned config (withCompiler config factory) where
  config_eq := rfl
  scans := fun _ _ hget => by cases hget

theorem Scanned.scan (h : Scanned config w) (source : List Char) : ∃ w', Scanned config w' ∧
    w.scan source = (Files.scanWithDepth source config.files.maxImportDepth, w') := by
  obtain ⟨scans, hscans, hholds⟩ := h.scans.getOrCompute source
  unfold Workbench.scan
  rw [h.config_eq, hscans]
  exact ⟨_, ⟨rfl, hholds⟩, rfl⟩

theorem Scanned.withParser {α : Type} (h : Scanned config w) (nowMs : Nat)
    {f : Workbench → Except WorkbenchError α × Workbench} (hf : ∀ w, Scanned config w → Scanned config (f w).2) :
    Scanned config (w.withParser nowMs f).2 := by
  unfold Workbench.withParser
  split
  · exact ⟨h.config_eq, h.scans⟩
  · exact hf _ ⟨h.config_eq, h.scans⟩

theorem Scanned.compileStyles (h : Scanned config w) (nowMs : Nat) (classes : List (List Char)) :
    Scanned config (w.compileStyles nowMs classes).2 := by
  unfold Workbench.compileStyles
  split
  · exact ⟨h.config_eq, h.scans⟩
  · dsimp only
    split
    · exact ⟨h.config_eq, h.scans⟩
    · exact ⟨h.config_eq, h.scans⟩

theorem Scanned.report (h : Scanned config w) (nowMs : Nat) (scan : Files.Scan) (m : Syntax.Module)
    (options : AnalyzeOptions) : Scanned config (w.report nowMs scan m options).2 := by
  have hstyles := h.compileStyles nowMs ((candidates m).map String.toList)
  unfold Workbench.report
  dsimp only
  split
  · split
    · rename_i hcompiled
      rwa [hcompiled] at hstyles
    · rename_i hcompiled
      rwa [hcompiled] at hstyles
  · exact h

/-- **One operation** keeps the settings and keeps no scan but that of its source, even if a backend does not load. -/
theorem Scanned.run (h : Scanned config w) (nowMs : Nat) (op : Operation) : Scanned config (w.run nowMs op).2 := by
  cases op with
  | scan source =>
    obtain ⟨w', hw', hscan⟩ := h.scan source
    dsimp only [Workbench.run]
    rw [hscan]
    exact hw'
  | analyze source options =>
    obtain ⟨w', hw', hscan⟩ := h.scan source
    dsimp only [Workbench.run, Workbench.analyze]
    rw [hscan]
    refine hw'.withParser nowMs fun w hw => ?_
    split
    · exact hw
    · exact hw.report nowMs _ _ options
  | insert source point child => exact h.withParser nowMs fun w hw => hw
  | style source point update => exact h.withParser nowMs fun w hw => hw
  | move source point dx dy => exact h.withParser nowMs fun w hw => hw
  | inspect source => exact h.withParser nowMs fun w hw => hw
  | reset => exact ⟨h.config_eq, fun _ _ hget => by cases hget⟩

/-- a workbench after the operations of a session, each at its time -/
def after (w : Workbench) : List (Nat × Operation) → Workbench
  | [] => w
  | (nowMs, op) :: rest => (w.run nowMs op).2.after rest

theorem Scanned.after (h : Scanned config w) (ops : List (Nat × Operation)) : Scanned config (w.after ops) := by
  induction ops generalizing w with
  | nil => exact h
  | cons o rest ih => exact ih (h.run o.1 o.2)

/-! ## Reports -/

/-- a report of a module that asks for indexes has those of the blocks of its scan -/
theorem report_inspect {nowMs : Nat} {scan : Files.Scan} {m : Syntax.Module} {options : AnalyzeOptions}
    {report : Report} (h : (w.report nowMs scan m options).1 = .ok report) (hinspect : options.includeInspect = true) :
    report.inspect = some (inspectBlocks w.config.inspect.maxTextRanges scan) := by
  unfold Workbench.report at h
  dsimp only at h
  rw [if_pos hinspect] at h
  split at h
  · split at h
    · cases h
      rfl
    · cases h
  · cases h
    rfl

/-- **Indexes of an analysis.** Whatever was asked before, and whether backends loaded then or not: a report of a source
that is a module, asked for indexes, has the index of each block that is a module and nothing else. The index of the
main block is there if no file that is a module has its name. -/
theorem analyze_indexes (config : Config) (factory : Nat → Attempt Compiler) (ops : List (Nat × Operation))
    (nowMs : Nat) (source : List Char) (options : AnalyzeOptions) {report : Report}
    (h : (((withCompiler config factory).after ops).analyze nowMs source options).1 = .ok report)
    (hinspect : options.includeInspect = true) (hparsed : report.parseError = none) :
    ∃ indexes, report.inspect = some indexes ∧ IndexedBlocks config.inspect.maxTextRanges
      (Files.scanWithDepth source config.files.maxImportDepth) indexes := by
  obtain ⟨w, hw, hscan⟩ := ((scanned_withCompiler config factory).after ops).scan source
  unfold analyze at h
  rw [hscan] at h
  dsimp only at h
  unfold Workbench.withParser at h
  split at h
  · cases h
  · split at h
    · cases h
      cases hparsed
    · refine ⟨_, report_inspect h hinspect, ?_⟩
      dsimp only
      rw [hw.config_eq]
      exact indexedBlocks _ source _

/-- a file and a main block with an element each -/
def twoBlocks (name : String) : List Char :=
  ("// @snippet-file " ++ name ++ "\nconst q = <q/>;\n// @snippet-file-end\nconst m = <m/>;").toList

/-- what is told about a source after another one was scanned -/
def secondAnalysis : Except WorkbenchError Report :=
  (((withCompiler {} fun _ => ⟨.value Utility.Machine.compile, 0⟩).after [(0, .scan (twoBlocks "b"))]).analyze 1
    (twoBlocks "a") ⟨false, true⟩).1

theorem analyze_indexes_twoBlocks : ∃ report indexes, secondAnalysis = .ok report ∧ report.inspect = some indexes ∧
    (indexes.lookup mainBlockName).map (·.map InspectElement.name) = some [some "m"] := by
  have hmodule : secondAnalysis.toOption.any (·.parseError.isNone) = true := by decide +kernel
  cases hanswer : secondAnalysis with
  | error e =>
    rw [hanswer] at hmodule
    cases hmodule
  | ok report =>
    rw [hanswer] at hmodule
    have hparsed : report.parseError = none := Option.isNone_iff_eq_none.1 hmodule
    obtain ⟨indexes, hindexes, hblocks⟩ := analyze_indexes {} _ _ 1 _ _ hanswer rfl hparsed
    refine ⟨report, indexes, rfl, hindexes, ?_⟩
    have hnames : mainBlockName ∉ (Files.scanWithDepth (twoBlocks "a") 20).files.map Prod.fst := by decide +kernel
    rw [hblocks.main fun block hblock => absurd (List.mem_map.2 ⟨_, hblock, rfl⟩) hnames]
    decide +kernel

/-- **A file in the place of the main block.** If a file is called as the main block is indexed, its index is the only
one in the report, and the index of the main block is lost. -/
theorem main_index_replaced :
    ((((new {}).analyze 0 (twoBlocks mainBlockName) ⟨false, true⟩).1.toOption.bind Report.inspect).map
        fun indexes => indexes.map fun p => (p.1, p.2.map InspectElement.name)) = some [(mainBlockName, [some "q"])] ∧
      (blockIndex? 10 (Files.scan (twoBlocks mainBlockName)).main.text).map (·.map InspectElement.name) =
        some [some "m"] := by
  decide +kernel

end Workbench

end TsxWorkbench
