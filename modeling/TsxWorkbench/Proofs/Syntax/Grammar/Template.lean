/-
Template literals: a piece of text leaves off after the mark that ends it, and the parts between the pieces are in
place.
-/
import TsxWorkbench.Proofs.Syntax.Reading
import TsxWorkbench.Syntax.Grammar.Template

namespace TsxWorkbench.Syntax

open Text Node

variable {source : List Char} {part : Parse Node} {lo floor : Nat} {s : Reading}

/-- reading goes on after some characters that follow the current token -/
theorem resume_drop (h : At source lo floor s) (n : Nat) : Ok (resume (s.tail.drop n)) s fun _ t =>
    At source lo lo t ∧ t.seen = (s.tail.drop n).offset := by
  have hle : s.place ≤ (s.tail.drop n).offset :=
    (h.sound.place_le_past.trans_eq h.sound.past_eq).trans (Tail.RestOf.drop _ n).offset_le
  exact resume_ok h ((Tail.RestOf.drop _ n).trans h.sound.tail_rest) hle

theorem templatePiece_passes (hpart : Reads source part) :
    Passes source (templatePiece part) fun found => AllPlaced source found.2.toList := by
  intro lo floor s h
  refine .look rfl ?_
  dsimp only
  split
  · exact .throw
  refine .bind (resume_drop h _) fun _ t₁ ⟨h₁, _⟩ => ?_
  refine .ite (fun _ => ?_) fun _ => .pure ⟨h₁, allPlaced_nil⟩
  refine .bind (hpart h₁) fun node t₂ ⟨h₂, hnode⟩ => ?_
  refine .look rfl (.ite (fun _ => .pure ⟨h₂, by simpa using hnode.placed⟩) fun _ => ?_)
  exact .look rfl .failHere_bind

theorem template_passes (hpart : Reads source part) :
    Passes source (template part) fun found => AllPlaced source found.2 := by
  intro lo floor s h
  refine .bind (templatePiece_passes hpart h) fun first t₁ ⟨h₁, hfirst⟩ => ?_
  let I (pieces : List (String × Option Node)) (t : Reading) : Prop :=
    At source lo lo t ∧ ∀ p ∈ pieces, AllPlaced source p.2.toList
  refine .bind (extend_ok (I := I) (K := I) ?_ ⟨h₁, by simpa using hfirst⟩) fun pieces t₂ ⟨h₂, hpieces⟩ =>
    .pure ⟨h₂, ?_⟩
  · intro pieces s ⟨h, hpieces⟩
    split
    · refine .bind (templatePiece_passes hpart h) fun piece t ⟨ht, hpiece⟩ => ?_
      exact .pure ⟨ht, List.forall_mem_cons.2 ⟨hpiece, hpieces⟩⟩
    · exact .pure ⟨h, hpieces⟩
  · intro n hn
    obtain ⟨p, hp, hpn⟩ := List.mem_filterMap.1 hn
    exact hpieces p (List.mem_reverse.1 hp) n (by simp [hpn])

end TsxWorkbench.Syntax
