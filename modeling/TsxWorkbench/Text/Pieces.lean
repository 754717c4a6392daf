/-
Pieces of a text: what follows a beginning or comes before an end, and the two parts around the first or the last
occurrence of a character.
-/

namespace TsxWorkbench.Text

/-- the text after a given beginning -/
def stripStart? : List Char → List Char → Option (List Char)
  | [], cs => some cs
  | _ :: _, [] => none
  | p :: ps, c :: cs => if p = c then stripStart? ps cs else none

/-- text before the end, if the text ends so -/
def stripEnd? (tail cs : List Char) : Option (List Char) := (stripStart? tail.reverse cs.reverse).map List.reverse

/-- the text before and after the first occurrence of a character -/
def splitFirst? (sep : Char) (cs : List Char) : Option (List Char × List Char) :=
  match cs.dropWhile (· != sep) with
  | [] => none
  | _ :: rest => some (cs.takeWhile (· != sep), rest)

/-- the text before and after the last occurrence of a character -/
def splitLast? (sep : Char) (cs : List Char) : Option (List Char × List Char) :=
  let tail := (cs.reverse.takeWhile (· != sep)).reverse
  if tail.length = cs.length then none else some (cs.take (cs.length - tail.length - 1), tail)

/-- a text without its last characters of a kind -/
def dropEndWhile (p : Char → Bool) (cs : List Char) : List Char := (cs.reverse.dropWhile p).reverse

/-! ## Put together again -/

theorem stripStart?_eq_some_iff {start cs rest : List Char} :
    stripStart? start cs = some rest ↔ cs = start ++ rest := by
  induction start generalizing cs with
  | nil => simp [stripStart?]
  | cons p ps ih =>
    cases cs with
    | nil => simp [stripStart?]
    | cons c cs =>
      by_cases h : p = c
      · simp [stripStart?, h, ih]
      · simp [stripStart?, h, Ne.symm h]

theorem stripEnd?_eq_some_iff {tail cs rest : List Char} : stripEnd? tail cs = some rest ↔ cs = rest ++ tail := by
  unfold stripEnd?
  rw [Option.map_eq_some_iff]
  constructor
  · rintro ⟨r, hr, rfl⟩
    rw [stripStart?_eq_some_iff] at hr
    rw [← List.reverse_reverse cs, hr, List.reverse_append, List.reverse_reverse]
  · rintro rfl
    exact ⟨rest.reverse, stripStart?_eq_some_iff.2 List.reverse_append, List.reverse_reverse _⟩

theorem stripEnd?_append (cs tail : List Char) : stripEnd? tail (cs ++ tail) = some cs :=
  stripEnd?_eq_some_iff.2 rfl

theorem eq_of_splitFirst? {sep : Char} {cs before after : List Char} (h : splitFirst? sep cs = some (before, after)) :
    cs = before ++ sep :: after := by
  unfold splitFirst? at h
  split at h
  · cases h
  · rename_i c rest hdrop
    cases h
    have hc : c = sep := by
      have hhead := List.head?_dropWhile_not (· != sep) cs
      rw [hdrop] at hhead
      simpa using hhead
    rw [← hc, ← hdrop, hc, List.takeWhile_append_dropWhile]

theorem eq_of_splitLast? {sep : Char} {cs before after : List Char} (h : splitLast? sep cs = some (before, after)) :
    cs = before ++ sep :: after := by
  unfold splitLast? at h
  dsimp only at h
  split at h
  · cases h
  · rename_i hlength
    cases h
    have hsplit : cs = (cs.reverse.dropWhile (· != sep)).reverse ++ (cs.reverse.takeWhile (· != sep)).reverse := by
      rw [← List.reverse_append, List.takeWhile_append_dropWhile, List.reverse_reverse]
    cases hdrop : cs.reverse.dropWhile (· != sep) with
    | nil =>
      rw [hdrop] at hsplit
      exact absurd (congrArg List.length hsplit).symm (by simpa using hlength)
    | cons c rest =>
      have hc : c = sep := by
        have hhead := List.head?_dropWhile_not (· != sep) cs.reverse
        rw [hdrop] at hhead
        simpa using hhead
      rw [hdrop, List.reverse_cons, List.append_assoc] at hsplit
      have htake : cs.take (cs.length - (cs.reverse.takeWhile (· != sep)).reverse.length - 1) = rest.reverse := by
        have hcount : cs.length - (cs.reverse.takeWhile (· != sep)).reverse.length - 1 = rest.reverse.length := by
          have hlen := congrArg List.length hsplit
          simp only [List.length_append, List.length_cons, List.length_nil] at hlen
          omega
        rw [hcount]
        exact (congrArg (List.take rest.reverse.length) hsplit).trans List.take_left
      rw [htake]
      exact hc ▸ hsplit

/-- a character that does not occur does not split a text -/
theorem splitLast?_eq_none {sep : Char} {cs : List Char} (h : sep ∉ cs) : splitLast? sep cs = none := by
  cases hsplit : splitLast? sep cs with
  | none => rfl
  | some parts =>
    have heq := eq_of_splitLast? hsplit
    exact absurd (heq ▸ List.mem_append_right _ List.mem_cons_self) h

/-- the first occurrence is the one that nothing of its kind comes before -/
theorem splitFirst?_append {sep : Char} {before : List Char} (h : sep ∉ before) (after : List Char) :
    splitFirst? sep (before ++ sep :: after) = some (before, after) := by
  have hother : ∀ c ∈ before, (c != sep) = true := by
    intro c hc
    rw [bne_iff_ne]
    rintro rfl
    exact h hc
  unfold splitFirst?
  rw [List.dropWhile_append_of_pos hother, List.takeWhile_append_of_pos hother]
  simp

theorem splitFirst?_eq_none {sep : Char} {cs : List Char} (h : sep ∉ cs) : splitFirst? sep cs = none := by
  cases hsplit : splitFirst? sep cs with
  | none => rfl
  | some parts =>
    have heq := eq_of_splitFirst? hsplit
    exact absurd (heq ▸ List.mem_append_right _ List.mem_cons_self) h

/-- the last occurrence is the one that nothing of its kind comes after -/
theorem splitLast?_append {sep : Char} (before : List Char) {after : List Char} (h : sep ∉ after) :
    splitLast? sep (before ++ sep :: after) = some (before, after) := by
  have hother : ∀ c ∈ after.reverse, (c != sep) = true := by
    intro c hc
    rw [bne_iff_ne]
    rintro rfl
    exact h (List.mem_reverse.1 hc)
  have htail : ((before ++ sep :: after).reverse.takeWhile (· != sep)).reverse = after := by
    rw [List.reverse_append, List.reverse_cons, List.append_assoc, List.takeWhile_append_of_pos hother]
    simp
  have hlength : (before ++ sep :: after).length = before.length + (after.length + 1) := List.length_append
  unfold splitLast?
  dsimp only
  rw [htail, if_neg (by omega), show (before ++ sep :: after).length - after.length - 1 = before.length by omega,
    List.take_left]

end TsxWorkbench.Text
