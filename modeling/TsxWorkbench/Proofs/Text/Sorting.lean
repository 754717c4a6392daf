/-
Lists without repetitions (`nodup_eraseDups`, `eraseDups_concat`), and sorted sets of texts. Sorting brings equal texts
together, so that taking out the repetitions next to one another leaves each text once: `sortedTexts_strict`,
`mem_sortedTexts`.
-/
import TsxWorkbench.Text.Letters
import Mathlib.Data.List.Induction

namespace TsxWorkbench.Text

/-! ## Repetitions -/

theorem nodup_eraseDups {α : Type} [BEq α] [LawfulBEq α] : ∀ l : List α, l.eraseDups.Nodup
  | [] => .nil
  | a :: rest => by
    rw [List.eraseDups_cons, List.nodup_cons]
    constructor
    · intro ha
      simp at ha
    · exact nodup_eraseDups _
termination_by l => l.length
decreasing_by simp only [List.length_cons]; exact Nat.lt_succ_of_le (List.length_filter_le _ _)

/-- a list with one more item: a new one comes last -/
theorem eraseDups_concat {α : Type} [BEq α] [LawfulBEq α] [DecidableEq α] (l : List α) (a : α) :
    (l ++ [a]).eraseDups = if a ∈ l then l.eraseDups else l.eraseDups ++ [a] := by
  rw [List.eraseDups_append]
  by_cases ha : a ∈ l
  · simp [ha, List.removeAll]
  · simp [ha, List.removeAll, List.eraseDups_cons]

theorem all_eraseDups {α : Type} [BEq α] [LawfulBEq α] (l : List α) (p : α → Bool) : l.eraseDups.all p = l.all p := by
  rw [Bool.eq_iff_iff, List.all_eq_true, List.all_eq_true]
  exact forall_congr' fun x => imp_congr_left List.mem_eraseDups

theorem eraseDups_append_eraseDups {α : Type} [BEq α] [LawfulBEq α] [DecidableEq α] (l r : List α) :
    (l ++ r.eraseDups).eraseDups = (l ++ r).eraseDups := by
  induction r using List.reverseRecOn with
  | nil => rfl
  | append_singleton r x ih =>
    rw [eraseDups_concat, ← List.append_assoc, eraseDups_concat]
    by_cases hx : x ∈ r
    · rw [if_pos hx, if_pos (List.mem_append_right l hx), ih]
    · have hmem : x ∈ l ++ r.eraseDups ↔ x ∈ l ++ r := by
        rw [List.mem_append, List.mem_append, List.mem_eraseDups]
      rw [if_neg hx, ← List.append_assoc, eraseDups_concat, ih]
      simp only [hmem]

/-- repetitions within a part of a list may be taken out first -/
theorem eraseDups_group {α : Type} [BEq α] [LawfulBEq α] [DecidableEq α] (l r s : List α) :
    (l ++ (r.eraseDups ++ s)).eraseDups = (l ++ (r ++ s)).eraseDups := by
  induction s using List.reverseRecOn with
  | nil => rw [List.append_nil, List.append_nil, eraseDups_append_eraseDups]
  | append_singleton s x ih =>
    have hmem : x ∈ l ++ (r.eraseDups ++ s) ↔ x ∈ l ++ (r ++ s) := by
      simp only [List.mem_append, List.mem_eraseDups]
    have hlast : ∀ u : List α, l ++ (u ++ (s ++ [x])) = l ++ (u ++ s) ++ [x] := by simp
    rw [hlast, hlast, eraseDups_concat, eraseDups_concat, ih]
    simp only [hmem]

private theorem repsLoop_append {α : Type} (r : α → α → Bool) (rest : List α) :
    ∀ a acc, List.eraseRepsBy.loop r a rest acc = acc.reverse ++ List.eraseRepsBy.loop r a rest [] := by
  induction rest with
  | nil => simp [List.eraseRepsBy.loop]
  | cons b rest ih =>
    intro a acc
    unfold List.eraseRepsBy.loop
    split
    · exact ih a acc
    · rw [ih b (a :: acc), ih b [a]]
      simp

theorem eraseReps_cons_cons {α : Type} [BEq α] (a b : α) (rest : List α) : (a :: b :: rest).eraseReps =
    if a == b then (a :: rest).eraseReps else a :: (b :: rest).eraseReps := by
  show List.eraseRepsBy.loop _ a (b :: rest) [] = _
  unfold List.eraseRepsBy.loop
  cases hab : a == b with
  | true => simp [List.eraseReps, List.eraseRepsBy]
  | false => simp [repsLoop_append _ rest b [a], List.eraseReps, List.eraseRepsBy]

theorem eraseReps_singleton {α : Type} [BEq α] (a : α) : [a].eraseReps = [a] := rfl

theorem mem_eraseReps_cons {α : Type} [BEq α] [LawfulBEq α] {x a : α} {rest : List α} :
    x ∈ (a :: rest).eraseReps ↔ x ∈ a :: rest := by
  induction rest generalizing a with
  | nil => rw [eraseReps_singleton]
  | cons b rest ih =>
    rw [eraseReps_cons_cons]
    split
    · rename_i hab
      rw [ih, eq_of_beq hab]
      simp
    · rw [List.mem_cons, ih, List.mem_cons (b := a)]

/-- a sorted list without repetitions next to one another is strictly sorted -/
theorem pairwise_eraseReps_cons {a : String} {rest : List String} (h : (a :: rest).Pairwise (· ≤ ·)) :
    (a :: rest).eraseReps.Pairwise (· < ·) := by
  induction rest generalizing a with
  | nil =>
    rw [eraseReps_singleton]
    exact List.pairwise_singleton _ _
  | cons b rest ih =>
    obtain ⟨ha, hrest⟩ := List.pairwise_cons.1 h
    rw [eraseReps_cons_cons]
    split
    · exact ih (List.pairwise_cons.2 ⟨fun c hc => ha c (List.mem_cons_of_mem _ hc), (List.pairwise_cons.1 hrest).2⟩)
    · rename_i hab
      have hlt : ¬b ≤ a := fun hba => hab (beq_iff_eq.2 (String.le_antisymm (ha b List.mem_cons_self) hba))
      refine List.pairwise_cons.2 ⟨fun c hc => String.not_le.1 fun hca => ?_, ih hrest⟩
      rcases List.mem_cons.1 (mem_eraseReps_cons.1 hc) with rfl | hc
      · exact hlt hca
      · exact hlt (String.le_trans ((List.pairwise_cons.1 hrest).1 c hc) hca)

theorem mem_sortedTexts {x : String} {texts : List String} : x ∈ sortedTexts texts ↔ x ∈ texts := by
  have hmem : x ∈ texts.mergeSort (fun a b => !decide (b < a)) ↔ x ∈ texts := List.mem_mergeSort
  rw [← hmem, sortedTexts]
  cases texts.mergeSort fun a b => !decide (b < a) with
  | nil => rfl
  | cons a rest => exact mem_eraseReps_cons

/-- a sorted set of texts holds each text once, in order -/
theorem sortedTexts_strict (texts : List String) : (sortedTexts texts).Pairwise (· < ·) := by
  have hle : ∀ a b : String, (!decide (b < a)) = true ↔ a ≤ b := by
    intro a b
    rw [Bool.not_eq_true', decide_eq_false_iff_not, String.not_lt]
  have hsorted : (texts.mergeSort fun a b => !decide (b < a)).Pairwise (· ≤ ·) := by
    refine (List.pairwise_mergeSort ?_ ?_ texts).imp fun h => (hle _ _).1 h
    · intro a b c hab hbc
      exact (hle a c).2 (String.le_trans ((hle a b).1 hab) ((hle b c).1 hbc))
    · intro a b
      rw [Bool.or_eq_true, hle, hle]
      exact String.le_total a b
  unfold sortedTexts
  revert hsorted
  cases texts.mergeSort fun a b => !decide (b < a) with
  | nil => exact fun _ => .nil
  | cons a rest => exact pairwise_eraseReps_cons

end TsxWorkbench.Text
