/-
Every node of a module that was read is in place. The reader of goals keeps the promises of its parts by induction on
its depth (`readGoal_readers`); reading starts in a sound state, and a module is a list of its statements.
-/
import TsxWorkbench.Proofs.Syntax.Grammar.Statement
import TsxWorkbench.Syntax.Parser

namespace TsxWorkbench.Syntax

open Text Node

variable {source : List Char} {s : Reading}

/-- a result that passes a test is no failure -/
theorem exists_of_toOption_any {ε α : Type} {x : Except ε α} {test : α → Bool} (h : x.toOption.any test = true) :
    ∃ a, x = .ok a ∧ test a = true := by
  cases x with
  | error => cases h
  | ok a => exact ⟨a, rfl, h⟩

/-- each part of the grammar keeps its promise if the parts one level further down do -/
theorem readGoal_readers (depth : Nat) : Readers source (readGoal depth) := by
  induction depth with
  | zero =>
    have hfail (goal : Goal) : Reads source (readGoal 0 goal) := fun _ _ _ _ => .look rfl .throw
    exact ⟨hfail _, hfail _, hfail _, hfail _, fun _ _ _ _ => .look rfl .throw, fun _ => hfail _, fun _ _ => hfail _,
      fun _ _ => hfail _, hfail _, fun _ => hfail _⟩
  | succ depth ih =>
    exact {
      type := type_reads ih
      unconditionalType := unconditionalType_reads ih false
      target := target_reads ih
      block := block_reads ih
      element := element_held ih
      expression := expression_reads ih
      assignment := assignment_reads ih
      binary := binary_reads ih
      unary := unary_reads ih
      statement := statement_reads ih }

theorem passInterpreterLine_rest (t : Tail) : (passInterpreterLine t).RestOf t := by
  unfold passInterpreterLine
  split
  · exact .drop _ _
  · exact .refl _

/-- reading starts before the first token -/
theorem start_at : At source 0 0 (Reading.start source) := by
  have hstep := scan_sound (passInterpreterLine_rest ⟨source, 0⟩)
  have hzero : Boundary source 0 := (Tail.RestOf.refl (⟨source, 0⟩ : Tail)).boundary
  exact ⟨⟨hstep, Nat.zero_le _, hzero⟩, hzero, Nat.zero_le _, Nat.zero_le _⟩

theorem moduleItems_moves {r : Goal → Parse Node} (hr : Readers source r) :
    Moves source (moduleItems r) (AllPlaced source) := by
  refine many_nodes fun lo floor s h => ?_
  refine .look rfl (.ite (fun _ => .pure ⟨h, allPlaced_nil⟩) fun _ => ?_)
  exact .bind ((hr.statement true).moves h) fun n t ⟨ht, hn⟩ => .pure ⟨ht, hn.one⟩

/-- **All is in place.** Every node of a module covers a range of its text, and the parts that edits work with lie
where they belong. -/
theorem parseModule_placed {m : Module} (h : parseModule source = .ok m) {n : Node} (hn : n ∈ m.preorder) :
    n.Placed source := by
  unfold parseModule at h
  split at h
  · rename_i items t hitems
    cases h
    have hplaced := (moduleItems_moves (readGoal_readers _) start_at _ _ hitems).2
    obtain ⟨item, hitem, hmem⟩ := List.mem_flatMap.1 hn
    exact (hplaced item hitem).of_mem_preorder hmem
  · cases h

end TsxWorkbench.Syntax
