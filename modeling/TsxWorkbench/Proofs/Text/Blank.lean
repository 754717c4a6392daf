/-
Blanks at the ends of a text, and between its words. `exists_trimEnd_append` gives the blanks that trimming takes from
the end, and `trimEnd_append_of_not_isBlank` says where it stops. `mem_words` says what the words of a text are.
-/
import Mathlib.Data.List.DropRight
import TsxWorkbench.Text.Blank

namespace TsxWorkbench.Text

theorem trimEnd_append_blanks (cs : List Char) {ws : List Char} (h : ∀ c ∈ ws, isBlank c = true) :
    trimEnd (cs ++ ws) = trimEnd cs := by
  simp only [trimEnd, List.reverse_append]
  rw [List.dropWhile_append_of_pos fun c hc => h c (List.mem_reverse.1 hc)]

/-- a text is what trimming leaves of it and a run of blanks -/
theorem exists_trimEnd_append (cs : List Char) :
    ∃ ws, cs = trimEnd cs ++ ws ∧ ∀ c ∈ ws, isBlank c = true :=
  ⟨cs.rtakeWhile isBlank, List.rdropWhile_append_rtakeWhile.symm, fun _ h => List.mem_rtakeWhile_imp h⟩

/-- blanks are trimmed no further than to a character that is not blank -/
theorem trimEnd_append_of_not_isBlank (pre : List Char) {c : Char} (hc : isBlank c = false) (mid : List Char) :
    trimEnd (pre ++ [c] ++ mid) = pre ++ [c] ++ trimEnd mid := by
  show List.rdropWhile isBlank _ = _ ++ List.rdropWhile isBlank mid
  induction mid using List.reverseRecOn with
  | nil => simp [List.rdropWhile_concat_neg, hc]
  | append_singleton ms d ih =>
    rw [← List.append_assoc]
    cases hd : isBlank d with
    | true => rw [List.rdropWhile_concat_pos _ _ _ hd, List.rdropWhile_concat_pos _ _ _ hd, ih]
    | false =>
      rw [List.rdropWhile_concat_neg _ _ _ (by simp [hd]), List.rdropWhile_concat_neg _ _ _ (by simp [hd]),
        List.append_assoc]

/-- a trimmed text does not start with a blank -/
theorem isBlank_head_trim {cs rest : List Char} {c : Char} (h : trim cs = c :: rest) : isBlank c = false := by
  obtain ⟨ws, hws, -⟩ := exists_trimEnd_append (trimStart cs)
  rw [show trimEnd (trimStart cs) = c :: rest from h] at hws
  have hhead := List.head?_dropWhile_not isBlank cs
  rw [show cs.dropWhile isBlank = _ from hws] at hhead
  simpa using hhead

/-- trimming a text once is enough -/
theorem trim_trim (cs : List Char) : trim (trim cs) = trim cs := by
  have hstart : trimStart (trim cs) = trim cs := by
    cases htrim : trim cs with
    | nil => rfl
    | cons c rest => exact List.dropWhile_cons_of_neg (by simp [isBlank_head_trim htrim])
  calc trim (trim cs) = trimEnd (trim cs) := congrArg trimEnd hstart
    _ = trim cs := List.rdropWhile_idempotent isBlank (trimStart cs)

theorem trim_cons_ne_nil {c : Char} (hc : isBlank c = false) (cs : List Char) : trim (c :: cs) ≠ [] := by
  have htrim := trimEnd_append_of_not_isBlank [] hc cs
  rw [trim, trimStart, List.dropWhile_cons_of_neg (by simp [hc]), show c :: cs = [] ++ [c] ++ cs from rfl, htrim]
  simp

/-- a text of which trimming leaves nothing is blank -/
theorem isBlank_of_trim_eq_nil {cs : List Char} (h : trim cs = []) : ∀ c ∈ cs, isBlank c = true := by
  have hend : ∀ c ∈ trimStart cs, isBlank c = true := by
    obtain ⟨ws, hws, hblank⟩ := exists_trimEnd_append (trimStart cs)
    rw [show trimEnd (trimStart cs) = [] from h, List.nil_append] at hws
    exact hws ▸ hblank
  intro c hc
  rw [← List.takeWhile_append_dropWhile (p := isBlank) (l := cs), List.mem_append] at hc
  rcases hc with hc | hc
  · exact List.mem_takeWhile_imp hc
  · exact hend c hc

/-- a text that does not start or end in a blank, and has some character -/
structure Tight (cs : List Char) : Prop where
  first : ∃ c rest, cs = c :: rest ∧ isBlank c = false
  last : ∃ rest c, cs = rest ++ [c] ∧ isBlank c = false

theorem Tight.ne_nil {cs : List Char} (h : Tight cs) : cs ≠ [] := by
  obtain ⟨c, rest, rfl, -⟩ := h.first
  exact List.cons_ne_nil c rest

/-- a text that is not blank is a tight text with blanks around it, and trimming takes just these -/
theorem exists_tight {cs : List Char} (h : trimStart cs ≠ []) : ∃ before mid after, cs = before ++ (mid ++ after) ∧
    Tight mid ∧ (∀ c ∈ before, isBlank c = true) ∧ (∀ c ∈ after, isBlank c = true) ∧
    trimStart cs = mid ++ after ∧ trimEnd cs = before ++ mid := by
  obtain ⟨c, rest, hstart⟩ := List.exists_cons_of_ne_nil h
  have hcs : cs.takeWhile isBlank ++ c :: rest = cs := hstart ▸ List.takeWhile_append_dropWhile
  have hc : isBlank c = false := by
    have hhead := List.head?_dropWhile_not isBlank cs
    rw [show cs.dropWhile isBlank = _ from hstart] at hhead
    simpa using hhead
  obtain ⟨after, hrest, hafter⟩ := exists_trimEnd_append rest
  refine ⟨cs.takeWhile isBlank, c :: trimEnd rest, after, ?_, ⟨⟨c, trimEnd rest, rfl, hc⟩, ?_⟩,
    fun d hd => List.mem_takeWhile_imp hd, hafter, ?_, ?_⟩
  · rw [List.cons_append, ← hrest, hcs]
  · rcases List.eq_nil_or_concat' (trimEnd rest) with hnil | ⟨init, d, hlast⟩
    · exact ⟨[], c, by rw [hnil]; rfl, hc⟩
    · refine ⟨c :: init, d, by rw [hlast]; rfl, ?_⟩
      have hd := List.rdropWhile_last_not isBlank rest (by rw [show rest.rdropWhile isBlank = _ from hlast]; simp)
      simpa [show rest.rdropWhile isBlank = _ from hlast] using hd
  · rw [List.cons_append, ← hrest, hstart]
  · have htrim := trimEnd_append_of_not_isBlank (cs.takeWhile isBlank) hc rest
    rw [List.append_assoc, List.singleton_append, hcs] at htrim
    rw [htrim, List.append_assoc, List.singleton_append]

/-! ## Words -/

/-- a word of a text: a run of characters that are not blank, with a blank or an end of the text on either side -/
structure WordOf (cs w : List Char) : Prop where
  ne_nil : w ≠ []
  solid : ∀ c ∈ w, isBlank c = false
  stands : ∃ before after, cs = before ++ (w ++ after) ∧ (∀ c ∈ before.getLast?, isBlank c = true) ∧
    ∀ c ∈ after.head?, isBlank c = true

variable {u w cs : List Char} {c : Char}

/-- no blank ends a run without blanks, so only an empty text can end in one and start a run -/
theorem eq_nil_of_blank_last {before : List Char} (hlast : ∀ c ∈ before.getLast?, isBlank c = true)
    (hsolid : ∀ c ∈ before, isBlank c = false) : before = [] := by
  rcases List.eq_nil_or_concat before with rfl | ⟨init, c, rfl⟩
  · rfl
  · rw [List.concat_eq_append] at hlast hsolid
    have hblank := hlast c (by simp)
    exact absurd (hblank.symm.trans (hsolid c (by simp))) (by decide)

theorem eq_nil_of_blank_head {after : List Char} (hhead : ∀ c ∈ after.head?, isBlank c = true)
    (hsolid : ∀ c ∈ after, isBlank c = false) : after = [] := by
  cases after with
  | nil => rfl
  | cons c rest => exact absurd ((hhead c rfl).symm.trans (hsolid c List.mem_cons_self)) (by decide)

/-- the word of a run without blanks is the run -/
theorem wordOf_solid (hu : ∀ c ∈ u, isBlank c = false) : WordOf u w ↔ u ≠ [] ∧ w = u := by
  constructor
  · rintro ⟨hne, -, before, after, rfl, hbefore, hafter⟩
    rw [List.forall_mem_append, List.forall_mem_append] at hu
    obtain rfl := eq_nil_of_blank_last hbefore hu.1
    obtain rfl := eq_nil_of_blank_head hafter hu.2.2
    exact ⟨by simpa using hne, by simp⟩
  · rintro ⟨hne, rfl⟩
    exact ⟨hne, hu, [], [], by simp, by simp, by simp⟩

/-- the words of a run without blanks and what comes after a blank -/
theorem wordOf_append_blank (hu : ∀ c ∈ u, isBlank c = false) (hc : isBlank c = true) :
    WordOf (u ++ c :: cs) w ↔ WordOf u w ∨ WordOf cs w := by
  rw [wordOf_solid hu]
  constructor
  · rintro ⟨hne, hsolid, before, after, heq, hbefore, hafter⟩
    rcases List.append_eq_append_iff.1 heq with ⟨x, rfl, hx⟩ | ⟨y, rfl, hy⟩
    -- the word starts after the run: then it starts after the blank
    · cases x with
      | nil =>
        obtain ⟨d, w, rfl⟩ := List.exists_cons_of_ne_nil hne
        cases (List.cons.inj hx).1
        exact absurd (hc.symm.trans (hsolid c List.mem_cons_self)) (by decide)
      | cons d x =>
        obtain ⟨rfl, rfl⟩ := List.cons.inj hx
        refine .inr ⟨hne, hsolid, x, after, rfl, fun e he => hbefore e ?_, hafter⟩
        rw [List.getLast?_append_of_ne_nil _ (List.cons_ne_nil c x), List.getLast?_cons]
        exact Option.mem_def.2 (by rw [Option.mem_def.1 he]; rfl)
    -- the word starts with the run, and the blank ends both
    · rw [List.forall_mem_append] at hu
      obtain rfl := eq_nil_of_blank_last hbefore hu.1
      rcases List.append_eq_append_iff.1 hy with ⟨z, rfl, hz⟩ | ⟨z, rfl, hz⟩
      · rw [List.forall_mem_append] at hu
        have hz : z = [] := eq_nil_of_blank_head (fun d hd => hafter d (by
          rw [hz, List.head?_append, Option.mem_def.1 hd]; rfl)) hu.2.2
        subst hz
        exact .inl ⟨by simpa using hne, by simp⟩
      · cases z with
        | nil => exact .inl ⟨by simpa using hne, by simp⟩
        | cons d z =>
          cases (List.cons.inj hz).1
          exact absurd (hc.symm.trans (hsolid c (by simp))) (by decide)
  · rintro (⟨hne, rfl⟩ | ⟨hne, hsolid, before, after, rfl, hbefore, hafter⟩)
    · exact ⟨hne, hu, [], c :: cs, rfl, by simp, by simp [hc]⟩
    · refine ⟨hne, hsolid, u ++ c :: before, after, by simp, fun d hd => ?_, hafter⟩
      rw [List.getLast?_append_of_ne_nil _ (List.cons_ne_nil c before), List.getLast?_cons] at hd
      cases hlast : before.getLast? with
      | none =>
        rw [hlast] at hd
        exact Option.some.inj hd ▸ hc
      | some e =>
        rw [hlast] at hd
        exact Option.some.inj hd ▸ hbefore e hlast

/-- **Words of a text.** They are read off one run after the other: the first run ends the text or ends at a blank, and the
words of the rest follow. -/
theorem mem_words (w cs : List Char) : w ∈ words cs ↔ WordOf cs w := by
  have hrun : ∀ c ∈ cs.takeWhile (!isBlank ·), isBlank c = false := fun c hc => by
    simpa using List.mem_takeWhile_imp hc
  rcases hrest : cs.dropWhile (!isBlank ·) with _ | ⟨c, rest⟩
  · have hcs : cs.takeWhile (!isBlank ·) = cs := by
      rw [← List.append_nil (cs.takeWhile _), ← hrest, List.takeWhile_append_dropWhile]
    rw [hcs] at hrun
    rw [wordOf_solid hrun]
    by_cases hne : cs = []
    · subst hne
      exact ⟨fun h => absurd h List.not_mem_nil, fun h => absurd rfl h.1⟩
    · rw [words_of_solid hne hrun, List.mem_singleton]
      simp [hne]
  · have hcs : cs = cs.takeWhile (!isBlank ·) ++ c :: rest := by
      rw [← hrest, List.takeWhile_append_dropWhile]
    have hc : isBlank c = true := by
      have hhead := List.head?_dropWhile_not (!isBlank ·) cs
      simpa [hrest] using hhead
    have hlt : rest.length < cs.length := by
      rw [hcs]
      simp
      omega
    generalize cs.takeWhile (!isBlank ·) = u at hcs hrun
    subst hcs
    rw [wordOf_append_blank hrun hc, wordOf_solid hrun, ← mem_words w rest]
    by_cases hne : u = []
    · subst hne
      rw [List.nil_append, words_cons_blank hc]
      simp
    · rw [words_append_blank hne hrun hc, List.mem_cons]
      simp [hne]
termination_by cs.length

end TsxWorkbench.Text
