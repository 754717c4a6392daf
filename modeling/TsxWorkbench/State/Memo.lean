/-
The value of the last key that was asked for. Values are numbered as they are computed, so that a value that was kept
can be told from one that was computed again.
-/

namespace TsxWorkbench.State

structure Memo (κ α : Type) where
  slot : Option (κ × α)
  computed : Nat

namespace Memo

variable {κ α : Type}

def empty : Memo κ α := ⟨none, 0⟩

/-- forgets the value; numbering goes on -/
def reset (m : Memo κ α) : Memo κ α := ⟨none, m.computed⟩

/-- the value kept for a key -/
def get? [BEq κ] (m : Memo κ α) (key : κ) : Option α :=
  match m.slot with
  | some (k, a) => if k == key then some a else none
  | none => none

/-- the value of a key, computed unless it was kept; the computation is given the number of its value -/
def getOrCompute [BEq κ] (m : Memo κ α) (key : κ) (compute : Nat → α) : α × Memo κ α :=
  match m.get? key with
  | some a => (a, m)
  | none =>
    let a := compute (m.computed + 1)
    (a, ⟨some (key, a), m.computed + 1⟩)

end Memo

end TsxWorkbench.State
