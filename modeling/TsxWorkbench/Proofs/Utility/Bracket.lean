/-
Values in square brackets. Brackets are read back as what stands in them with underscores as spaces (`spaced`). For
texts and borders a length is told from a colour by how it starts; a colour is what was written unless its end is
taken for an opacity (`colour?_bracketed`).
-/
import TsxWorkbench.Proofs.Number.ScriptText
import TsxWorkbench.Proofs.Utility.Naming

namespace TsxWorkbench.Utility

open Number Text

/-- a text with underscores read as spaces -/
def spaced (cs : List Char) : List Char := cs.map fun c => if c = '_' then ' ' else c

theorem spaced_of_not_mem {cs : List Char} (h : '_' ∉ cs) : spaced cs = cs := by
  refine (List.map_congr_left fun c hc => ?_).trans (List.map_id cs)
  have hne : c ≠ '_' := by
    rintro rfl
    exact h hc
  rw [if_neg hne, id]

variable {inner : List Char}

theorem arbitrary?_bracketed (hne : inner ≠ []) : arbitrary? (bracketed inner) = some (spaced inner) := by
  unfold arbitrary? bracketed
  simp [stripEnd?_append, hne, spaced]

/-- an arbitrary value is what stands in brackets -/
theorem eq_bracketed_of_arbitrary? {v found : List Char} (h : arbitrary? v = some found) :
    ∃ inner, v = bracketed inner ∧ inner ≠ [] ∧ found = spaced inner := by
  unfold arbitrary? at h
  split at h
  · split at h
    · rename_i inner hstrip
      split at h
      · cases h
      · rename_i hne
        cases h
        refine ⟨inner, ?_, by simpa using hne, rfl⟩
        rw [stripEnd?_eq_some_iff.1 hstrip]
        rfl
    · cases h
  · cases h

/-- brackets are no name in a table without brackets -/
theorem lookup_bracketed {α : Type} {table : List (String × α)} (h : ∀ row ∈ table, '[' ∉ row.1.toList)
    (inner : List Char) : table.lookup (String.ofList (bracketed inner)) = none := by
  cases hlookup : table.lookup (String.ofList (bracketed inner)) with
  | none => rfl
  | some a =>
    obtain ⟨row, hrow, heq⟩ := List.mem_map.1 (mem_map_fst_of_lookup hlookup)
    exact absurd (heq ▸ List.mem_cons_self) (h row hrow)

/-! ## Colours -/

/-- a colour without opacity is a keyword, stands in brackets or is in the palette -/
theorem baseColour?_cases {base c : List Char} (h : baseColour? base = some c) :
    base ∈ colourNames.map (fun row => row.1.toList) ∨ (∃ inner, base = bracketed inner) ∨ base ∈ paletteNames := by
  unfold baseColour? at h
  split at h
  · rename_i hnamed
    obtain ⟨w, hw, -⟩ := Option.map_eq_some_iff.1 hnamed
    exact .inl (mem_map_fst_of_lookup hw)
  · split at h
    · rename_i harb
      obtain ⟨raw, hraw, -⟩ := eq_bracketed_of_arbitrary? harb
      exact .inr (.inl ⟨raw, hraw⟩)
    · obtain ⟨hex, hhex, -⟩ := Option.map_eq_some_iff.1 h
      exact .inr (.inr (lookup?_mem hhex))

/-- an opacity after a slash ends in a digit, or it is a number in brackets of its own -/
theorem alpha?_eq_none {tail : List Char} (h : ∀ d, tail = '[' :: d → decimal? (spaced d) = none) :
    alpha? (tail ++ [']']) = none := by
  unfold alpha?
  cases harb : arbitrary? (tail ++ [']']) with
  | none =>
    have hdigits : unsigned32? (tail ++ [']']) = none := unsigned?_concat_eq_none _ _ (by decide) (by decide)
    dsimp only
    rw [hdigits]
  | some v =>
    cases tail with
    | nil => cases harb
    | cons c d =>
      unfold arbitrary? at harb
      split at harb
      · rename_i rest heq
        obtain ⟨hc, hrest⟩ := List.cons.inj heq
        have hstrip : stripEnd? [']'] rest = some d := stripEnd?_eq_some_iff.2 hrest.symm
        rw [hstrip] at harb
        dsimp only at harb
        split at harb
        · cases harb
        · cases harb
          exact h d (by rw [hc])
      · cases harb

/-- a text of which no end is taken for an opacity -/
def Unsuffixed (v : List Char) : Prop := ∀ a d, v = a ++ '/' :: '[' :: d → decimal? d = none

theorem unsuffixed_of_not_mem {v : List Char} (h : '[' ∉ v) : Unsuffixed v := by
  rintro a d rfl
  exact absurd (List.mem_append_right _ (List.mem_cons_of_mem _ List.mem_cons_self)) h

theorem splitAlpha_bracketed (h : Unsuffixed (spaced inner)) :
    splitAlpha (bracketed inner) = (bracketed inner, none) := by
  unfold splitAlpha
  cases hsplit : splitLast? '/' (bracketed inner) with
  | none => rfl
  | some parts =>
    obtain ⟨base, after⟩ := parts
    have heq : '[' :: (inner ++ [']']) = base ++ '/' :: after := eq_of_splitLast? hsplit
    have hnone : alpha? after = none := by
      rcases List.eq_nil_or_concat after with rfl | ⟨tail, last, rfl⟩
      · rfl
      · cases base with
        | nil => cases heq
        | cons b bs =>
          rw [List.concat_eq_append, ← List.cons_append, ← List.cons_append, ← List.append_assoc] at heq
          obtain ⟨hhead, hlast⟩ := List.append_inj' heq rfl
          cases hlast
          rw [List.concat_eq_append]
          apply alpha?_eq_none
          rintro d rfl
          apply h (spaced bs) (spaced d)
          rw [(List.cons.inj hhead).2]
          simp [spaced]
    dsimp only
    rw [hnone]

/-- **A colour in brackets.** It is read back as it was written, with underscores as spaces. -/
theorem colour?_bracketed (hne : inner ≠ []) (hlength : isLength (spaced inner) = false)
    (hend : Unsuffixed (spaced inner)) : colour? (bracketed inner) = some (spaced inner) := by
  have hnamed : named? colourNames (bracketed inner) = none := by
    rw [named?, lookup_bracketed (by decide)]
    rfl
  unfold colour? baseColour?
  rw [splitAlpha_bracketed hend]
  simp [hnamed, arbitrary?_bracketed hne, hlength]

/-! ## Fields -/

theorem textUtility?_bracketed (hne : inner ≠ []) : textUtility? (bracketed inner) =
    if isLength (spaced inner) then some [⟨"font-size", spaced inner⟩]
    else (colour? (bracketed inner)).map fun c => [⟨"color", c⟩] := by
  unfold textUtility?
  rw [lookup_bracketed (by decide), arbitrary?_bracketed hne]
  rfl

theorem borderWidth?_bracketed (hne : inner ≠ []) : borderWidth? (some (bracketed inner)) =
    if isLength (spaced inner) then some (spaced inner) else none := by
  have hstep : ["0", "2", "4", "8"].contains (String.ofList (bracketed inner)) = false := by
    have hsteps : ∀ s ∈ ["0", "2", "4", "8"], '[' ∉ s.toList := by decide
    rw [Bool.eq_false_iff]
    intro hmem
    have hopen := hsteps _ (List.contains_iff_mem.1 hmem)
    rw [String.toList_ofList] at hopen
    exact hopen List.mem_cons_self
  unfold borderWidth?
  dsimp only
  rw [hstep, arbitrary?_bracketed hne]
  rfl

theorem radius?_bracketed (hne : inner ≠ []) : radius? (some (bracketed inner)) = some (spaced inner) := by
  have hnamed : named? radii (bracketed inner) = none := by
    rw [named?, lookup_bracketed (by decide)]
    rfl
  simp [radius?, hnamed, arbitrary?_bracketed hne]

end TsxWorkbench.Utility
