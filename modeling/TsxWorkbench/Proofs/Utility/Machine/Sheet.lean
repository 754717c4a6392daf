/-
Style sheets on a machine. Offsets and places stay below the sizes of the texts and lists that they point into, so they
fit a word, and the loops over places go through the rules as the library does: `partsFrom_ok`, `blockFrom_ok` and
`sheetFrom_ok`. What is left is the one number whose opposite has no room: `compile_faults`. So what is proved of the
sheets of the library holds of every sheet that the machine writes.
-/
import TsxWorkbench.Proofs.Utility.Grouping
import TsxWorkbench.Proofs.Utility.Machine.Resolve

namespace TsxWorkbench.Utility

open Text

/-! ## Neighbours -/

/-- the rules at the start of a sheet that have the condition of the first one are its first block -/
theorem sheetText_cons (r : Rule) (rest : List Rule) : sheetText (r :: rest) =
    blockText r.media (r :: rest.takeWhile fun rule => rule.media = r.media) ++
      sheetText (rest.dropWhile fun rule => rule.media = r.media) := by
  let same := fun rule : Rule => decide (rule.media = r.media)
  have hsame : ∀ rule ∈ r :: rest.takeWhile same, rule.media = r.media := by
    rw [List.forall_mem_cons]
    exact ⟨rfl, fun rule hrule => by simpa [same] using List.mem_takeWhile_imp hrule⟩
  have hgroup : (r :: rest.takeWhile same).IsChain fun a b => (a.media == b.media) = true := by
    refine (List.pairwise_of_forall_mem_list fun a ha b hb => ?_).isChain
    rw [hsame a ha, hsame b hb]
    exact beq_self_eq_true _
  have hends : ∀ a ∈ (r :: rest.takeWhile same).getLast?, ∀ b ∈ (rest.dropWhile same).head?,
      (a.media == b.media) = false := by
    intro a ha b hb
    have hdrop := List.head?_dropWhile_not same rest
    rw [hb] at hdrop
    rw [hsame a (List.mem_of_getLast? ha), beq_eq_false_iff_ne]
    exact fun heq => by simp [same, heq] at hdrop
  have hrules : r :: rest = (r :: rest.takeWhile same) ++ rest.dropWhile same := by
    rw [List.cons_append, List.takeWhile_append_dropWhile]
  rw [sheetText_eq, hrules, List.splitBy_append hends, List.splitBy_of_isChain (List.cons_ne_nil _ _) hgroup,
    List.flatMap_append, List.flatMap_singleton, ← sheetText_eq]
  rfl

/-- rules without a condition are written one after the other -/
theorem sheetText_always {r : Rule} (h : r.media.text? = none) (rest : List Rule) :
    sheetText (r :: rest) = r.text [] ++ sheetText rest := by
  have hblock : ∀ rules, blockText r.media rules = rules.flatMap (Rule.text []) := by
    intro rules
    rw [blockText, h]
  cases rest with
  | nil =>
    rw [sheetText_cons, hblock]
    simp
  | cons s rest =>
    by_cases hs : s.media = r.media
    · rw [sheetText_cons r, sheetText_cons s, hblock, hs, hblock]
      simp [hs]
    · rw [sheetText_cons r, hblock]
      simp [hs]

namespace Media

theorem Known.mem {m : Media} (h : m.Known) : m ∈ always :: conditions := by
  obtain ⟨breakpoint, dark⟩ := m
  cases breakpoint with
  | none => cases dark <;> simp [always, conditions]
  | some i =>
    have hi : i < breakpoints.length := h i rfl
    refine List.mem_cons_of_mem _ (List.mem_cons_of_mem _ (List.mem_flatMap.2 ⟨i, List.mem_range.2 hi, ?_⟩))
    cases dark <;> simp

/-- known conditions of one text are the same -/
theorem Known.eq_of_text? {m m' : Media} (h : m.Known) (h' : m'.Known) (htext : m.text? = m'.text?) : m = m' := by
  have htexts : ∀ m ∈ always :: conditions, ∀ m' ∈ always :: conditions, m.text? = m'.text? → m = m' := by
    decide +kernel
  exact htexts m h.mem m' h'.mem htext

end Media

namespace Machine

/-! ## Variants -/

/-- **Parts.** The machine cuts a class at its colons. What it has read so far is parts with their colons, `done`, and
the start of one, `part`; the offsets are the ends of both. -/
theorem partsFrom_ok {raw : List Char} (hraw : byteLen raw < 2 ^ 63) (cs : List Char) :
    ∀ (done part : List Char) (depth : Nat), raw = done ++ (part ++ cs) → depth ≤ byteLen (done ++ part) →
      partsFrom raw depth (byteLen done) (byteLen (done ++ part)) cs = .ok (splitFrom depth part.reverse cs) := by
  induction cs with
  | nil =>
    intro done part depth hsplit _
    rw [List.append_nil] at hsplit
    rw [partsFrom, splitFrom, hsplit, cutFrom_append, List.reverse_reverse]
    rfl
  | cons c cs ih =>
    intro done part depth hsplit hdepth
    have hpos := c.utf8Size_pos
    have hroom : byteLen (done ++ part) + c.utf8Size < 2 ^ 63 := by
      have hlength := congrArg byteLen hsplit
      simp only [byteLen_append, byteLen_cons] at hlength ⊢
      omega
    have hnext : byteLen (done ++ part) + c.utf8Size = byteLen (done ++ (part ++ [c])) := by
      simp only [byteLen_append, byteLen_cons, byteLen_nil]
      omega
    -- every character but a colon outside of brackets goes to the part
    have hmore : ∀ depth', depth' ≤ depth + 1 →
        partsFrom raw depth' (byteLen done) (byteLen (done ++ part) + c.utf8Size) cs =
          .ok (splitFrom depth' (c :: part.reverse) cs) := by
      intro depth' hdepth'
      have hsplit' : raw = done ++ ((part ++ [c]) ++ cs) := by rw [hsplit, List.append_assoc part]; rfl
      rw [hnext, ih done (part ++ [c]) depth' hsplit' (by omega), List.reverse_append]
      rfl
    rw [partsFrom, splitFrom]
    by_cases hopen : c = '['
    · rw [if_pos hopen, if_neg (by simp [hopen]), if_pos hopen, word_ok (by omega)]
      exact hmore _ (Nat.le_refl _)
    rw [if_neg hopen, if_neg hopen]
    by_cases hclose : c = ']'
    · rw [if_pos hclose, if_neg (by simp [hclose]), if_pos hclose]
      exact hmore _ (by omega)
    rw [if_neg hclose, if_neg hclose]
    by_cases hcolon : c = ':' ∧ depth = 0
    · obtain ⟨rfl, rfl⟩ := hcolon
      have hpart : cut raw (byteLen done) (byteLen (done ++ part)) = .ok part := by
        rw [hsplit, cut_append]
      have hone : Char.utf8Size ':' = 1 := rfl
      have hrest := ih (done ++ (part ++ [':'])) [] 0 (by rw [hsplit]; simp) (Nat.zero_le _)
      rw [List.append_nil, ← hnext, hone] at hrest
      rw [if_pos ⟨rfl, rfl⟩, if_pos ⟨rfl, rfl⟩, hpart, word_ok (by omega), hone]
      change (do return part :: (← partsFrom raw 0 _ _ cs)) = _
      rw [hrest, List.reverse_reverse]
      rfl
    · rw [if_neg hcolon, if_neg hcolon]
      exact hmore _ (Nat.le_succ _)

theorem splitVariants_ok {raw : List Char} (hraw : byteLen raw < 2 ^ 63) :
    partsFrom raw 0 0 0 raw = .ok (splitVariants raw) :=
  partsFrom_ok hraw raw [] [] 0 rfl (Nat.zero_le _)

/-! ## Rules -/

theorem rank_ok {m : Media} (h : m.Known) : rank m = .ok m.rank := by
  have hranks : ∀ m ∈ Media.always :: Media.conditions, rank m = .ok m.rank := by decide
  exact hranks m h.mem

theorem condition_ok {m : Media} (h : m.Known) : condition m = .ok m.text? := by
  have htexts : ∀ m ∈ Media.always :: Media.conditions, condition m = .ok m.text? := by decide +kernel
  exact htexts m h.mem

/-- the entry of a rule -/
def Entry.ofRule (r : Rule) : Entry := ⟨r.media.rank, r.media.text?, r.selector, r.declarations⟩

/-- the part of a class after its variants and the exclamation mark, and whether it has a minus sign -/
def signedPart (raw : List Char) : List Char × Bool :=
  dropMark '-' (dropMark '!' ((splitVariants raw).getLast?.getD [])).1

/-- a class whose variants are known, with the negative form of the least level or order after them -/
def NegatesLeast (raw : List Char) : Prop :=
  (Variants.ofNames (splitVariants raw).dropLast).isSome = true ∧ (signedPart raw).2 = true ∧
    IsLeastLevel (signedPart raw).1

instance : DecidablePred NegatesLeast := fun raw =>
  inferInstanceAs (Decidable ((Variants.ofNames (splitVariants raw).dropLast).isSome = true ∧ _))

section

variable {raw : List Char}

/-- the machine compiles a class as the library does, unless it has to negate the least number -/
theorem compileClass_ok (hraw : byteLen raw < 2 ^ 63) (h : ¬NegatesLeast raw) :
    compileClass raw = .ok ((compileClass? raw).map Entry.ofRule) := by
  unfold compileClass compileClass?
  simp only [splitVariants_ok hraw, ok_bind]
  cases hvariants : Variants.ofNames (splitVariants raw).dropLast with
  | none => rfl
  | some variants =>
    have hknown := (Variants.ofNames_holds ⟨0, false⟩ hvariants).1
    have hresolve := resolve_ok fun hnegative hleast => h ⟨by rw [hvariants]; rfl, hnegative, hleast⟩
    dsimp only
    rw [signedPart] at hresolve
    generalize dropMark '-' (dropMark '!' ((splitVariants raw).getLast?.getD [])).1 = part at hresolve ⊢
    by_cases hempty : part.1.isEmpty = true
    · rw [if_pos hempty, if_pos hempty]
      rfl
    · rw [if_neg hempty, if_neg hempty, hresolve, ok_bind]
      cases resolve? part.1 part.2 with
      | none => rfl
      | some found =>
        simp only [ok_bind, condition_ok hknown, rank_ok hknown, word_ok (show byteLen raw + 4 < 2 ^ 64 by omega)]
        rfl

theorem compileClass_overflow (hraw : byteLen raw < 2 ^ 63) (h : NegatesLeast raw) :
    compileClass raw = .error .overflow := by
  obtain ⟨hvariants, hnegative, hleast⟩ := h
  obtain ⟨variants, hvariants⟩ := Option.isSome_iff_exists.1 hvariants
  unfold compileClass
  simp only [splitVariants_ok hraw, ok_bind, hvariants]
  rw [signedPart] at hnegative hleast
  generalize dropMark '-' (dropMark '!' ((splitVariants raw).getLast?.getD [])).1 = part at hnegative hleast ⊢
  have hfull : ¬part.1.isEmpty = true := by
    rw [List.isEmpty_iff]
    intro hnil
    rw [hnil] at hleast
    exact absurd hleast (by decide)
  rw [if_neg hfull, hnegative, resolve_overflow hleast, error_bind]

end

/-! ## Text -/

section

variable {rules : List Rule}

/-- the place behind the rules read so far is that of the next one, and the place after it fits a word -/
theorem item_ofRule (hlength : rules.length < 2 ^ 63) {done : List Rule} {r : Rule} {rest : List Rule} {i : Nat}
    (hrules : rules = done ++ r :: rest) (hi : i = done.length) :
    i < (rules.map Entry.ofRule).length ∧ item (rules.map Entry.ofRule) i = .ok (.ofRule r) ∧
      word (i + 1) = .ok (i + 1) := by
  subst hrules hi
  refine ⟨by simp, item_ok (by simp), word_ok ?_⟩
  rw [List.length_append, List.length_cons] at hlength
  omega

/-- **Blocks.** From a place on, a block takes the rules that have its condition, and ends at the first other one. -/
theorem blockFrom_ok {m : Media} (hm : m.Known) {text : List Char} (htext : m.text? = some text)
    (hknown : ∀ r ∈ rules, r.media.Known) (hlength : rules.length < 2 ^ 63) (rest : List Rule) :
    ∀ (done : List Rule) (i : Nat), rules = done ++ rest → i = done.length →
      ∃ place, blockFrom (rules.map Entry.ofRule) text i =
          .ok ((rest.takeWhile fun r => r.media = m).flatMap (Rule.text "  ".toList), place) ∧
        place.1 = i + (rest.takeWhile fun r => r.media = m).length := by
  induction rest with
  | nil =>
    rintro done i rfl rfl
    rw [blockFrom, dif_neg (by simp)]
    exact ⟨_, rfl, rfl⟩
  | cons r rest ih =>
    intro done i hrules hi
    have hr : r.media.Known := hknown r (by simp [hrules])
    obtain ⟨hplace, hitem, hword⟩ := item_ofRule hlength hrules hi
    rw [blockFrom, dif_pos hplace, hitem, ok_bind, hword]
    by_cases hsame : r.media = m
    · have hcondition : (Entry.ofRule r).condition = some text := by rw [← htext, ← hsame]; rfl
      obtain ⟨⟨j, hj⟩, hrest, hplaces⟩ := ih (done ++ [r]) (i + 1) (by simp [hrules]) (by simp [hi])
      have htaken : (r :: rest).takeWhile (fun r => r.media = m) = r :: rest.takeWhile fun r => r.media = m :=
        List.takeWhile_cons_of_pos (decide_eq_true hsame)
      rw [if_pos hcondition, ok_bind, hrest, ok_bind, htaken, List.flatMap_cons, List.length_cons]
      refine ⟨⟨j, Nat.le_of_succ_le hj⟩, rfl, ?_⟩
      dsimp only at hplaces ⊢
      omega
    · have hcondition : (Entry.ofRule r).condition ≠ some text := by
        intro heq
        exact hsame (hr.eq_of_text? hm (heq.trans htext.symm))
      have htaken : (r :: rest).takeWhile (fun r => r.media = m) = [] :=
        List.takeWhile_cons_of_neg (by simp [hsame])
      rw [if_neg hcondition, htaken]
      exact ⟨_, rfl, rfl⟩

/-- **Sheets.** From a place on, the machine writes the sheet of the rules that are left. -/
theorem sheetFrom_ok (hknown : ∀ r ∈ rules, r.media.Known) (hlength : rules.length < 2 ^ 63) {done rest : List Rule}
    {i : Nat} (hrules : rules = done ++ rest) (hi : i = done.length) :
    sheetFrom (rules.map Entry.ofRule) i = .ok (sheetText rest) := by
  -- a block goes on behind its last rule, so on the number of rules left
  induction hleft : rest.length using Nat.strong_induction_on generalizing done rest i with
  | _ left ih =>
  cases rest with
  | nil =>
    rw [sheetFrom, dif_neg (by simp [hrules, hi])]
    rfl
  | cons r rest =>
    obtain ⟨hplace, hitem, hword⟩ := item_ofRule hlength hrules hi
    have hnext : rules = (done ++ [r]) ++ rest := by simp [hrules]
    rw [sheetFrom, dif_pos hplace, hitem, ok_bind, hword, ok_bind]
    cases htext : r.media.text? with
    | none =>
      have hcondition : (Entry.ofRule r).condition = none := htext
      have hrest := ih rest.length (by simp [← hleft]) hnext (i := i + 1) (by simp [hi]) rfl
      rw [hcondition]
      dsimp only
      rw [hrest, sheetText_always htext]
      rfl
    | some text =>
      have hcondition : (Entry.ofRule r).condition = some text := htext
      have hr : r.media.Known := hknown r (by simp [hrules])
      obtain ⟨⟨j, hj⟩, hblock, hplaces⟩ := blockFrom_ok hr htext hknown hlength rest _ (i + 1) hnext (by simp [hi])
      have hsplit : rules = (done ++ r :: rest.takeWhile fun rule => rule.media = r.media) ++
          rest.dropWhile fun rule => rule.media = r.media := by
        rw [List.append_assoc, List.cons_append, List.takeWhile_append_dropWhile, hrules]
      have hrest := ih _ ?_ hsplit (i := j) ?_ rfl
      rotate_left
      · rw [← hleft, List.length_cons]
        exact Nat.lt_succ_of_le (List.dropWhile_sublist _).length_le
      · change j = _ at hplaces
        rw [List.length_append, List.length_cons]
        omega
      rw [hcondition]
      dsimp only
      rw [hblock, ok_bind]
      dsimp only
      rw [hrest, sheetText_cons, blockText, htext]
      simp only [ok_bind, List.flatMap_cons]
      rfl

end

/-! ## Style sheets -/

theorem mapM_ok {α β : Type} {f : α → Run β} {g : α → β} {l : List α} (h : ∀ a ∈ l, f a = .ok (g a)) :
    l.mapM f = .ok (l.map g) := by
  induction l with
  | nil => rfl
  | cons a l ih =>
    rw [List.forall_mem_cons] at h
    rw [List.mapM_cons, h.1, ih h.2]
    rfl

/-- a run over a list ends with the fault of an item if there is no other fault -/
theorem mapM_error {α β : Type} {f : α → Run β} {g : α → β} {fault : Fault} {l : List α}
    (h : ∀ a ∈ l, f a = .ok (g a) ∨ f a = .error fault) (hfault : ∃ a ∈ l, f a = .error fault) :
    l.mapM f = .error fault := by
  induction l with
  | nil =>
    obtain ⟨a, ha, -⟩ := hfault
    cases ha
  | cons a l ih =>
    rw [List.forall_mem_cons] at h
    rw [List.mapM_cons]
    rcases h.1 with hok | herror
    · rw [List.exists_mem_cons_iff] at hfault
      have hrest : ∃ b ∈ l, f b = .error fault := by
        apply hfault.resolve_left
        rw [hok]
        exact nofun
      rw [hok, ih h.2 hrest]
      rfl
    · rw [herror]
      rfl

section

variable {classes : List (List Char)}

theorem compile_ok (hsize : ∀ raw ∈ classes, byteLen raw < 2 ^ 63) (hlength : classes.length < 2 ^ 63)
    (h : ∀ raw ∈ classes, ¬NegatesLeast raw) : compile classes = .ok (Utility.compile classes) := by
  have hentries : (classes.map fun raw => (compileClass? raw).map Entry.ofRule).filterMap id =
      (classes.filterMap compileClass?).map Entry.ofRule := by
    rw [List.filterMap_map, List.map_filterMap]
    rfl
  have hsorted : ((classes.filterMap compileClass?).map Entry.ofRule).mergeSort (fun a b => a.rank ≤ b.rank) =
      ((classes.filterMap compileClass?).mergeSort fun a b => a.media.rank ≤ b.media.rank).map Entry.ofRule := by
    rw [List.map_mergeSort]
    exact fun _ _ _ _ => rfl
  unfold compile Utility.compile
  rw [mapM_ok fun raw hraw => compileClass_ok (hsize raw hraw) (h raw hraw), ok_bind, hentries]
  dsimp only
  rw [hsorted]
  refine sheetFrom_ok ?_ ?_ (List.nil_append _).symm rfl
  · intro r hr
    obtain ⟨raw, -, hcompiled⟩ := List.mem_filterMap.1 (List.mem_mergeSort.1 hr)
    exact compileClass?_known hcompiled
  · rw [List.length_mergeSort]
    exact (List.length_filterMap_le _ _).trans_lt hlength

theorem compile_overflow (hsize : ∀ raw ∈ classes, byteLen raw < 2 ^ 63) (h : ∃ raw ∈ classes, NegatesLeast raw) :
    compile classes = .error .overflow := by
  obtain ⟨raw, hraw, hleast⟩ := h
  have hclasses : ∀ raw ∈ classes, compileClass raw = .ok ((compileClass? raw).map Entry.ofRule) ∨
      compileClass raw = .error .overflow := by
    intro raw hraw
    by_cases hnegates : NegatesLeast raw
    · exact .inr (compileClass_overflow (hsize raw hraw) hnegates)
    · exact .inl (compileClass_ok (hsize raw hraw) hnegates)
  unfold compile
  rw [mapM_error hclasses ⟨raw, hraw, compileClass_overflow (hsize raw hraw) hleast⟩]
  rfl

/-- **Faults.** The size of a text and the length of a list fit a signed word. For every list of classes the machine
writes the style sheet of the library: no count leaves its word, every cut is between two characters and every place is
in its list. The one thing that ends a run is a class that negates the least number of 64 bits. -/
theorem compile_faults (hsize : ∀ raw ∈ classes, byteLen raw < 2 ^ 63) (hlength : classes.length < 2 ^ 63) :
    compile classes =
      if ∃ raw ∈ classes, NegatesLeast raw then .error .overflow else .ok (Utility.compile classes) := by
  by_cases h : ∃ raw ∈ classes, NegatesLeast raw
  · rw [if_pos h, compile_overflow hsize h]
  · rw [if_neg h]
    apply compile_ok hsize hlength
    intro raw hraw hleast
    exact h ⟨raw, hraw, hleast⟩

theorem compile_faults_levels : compile ["p-4".toList, "md:-z-10".toList, "é-[:x".toList] =
      .ok (Utility.compile ["p-4".toList, "md:-z-10".toList, "é-[:x".toList]) ∧
    compile ["p-4".toList, "md:!-order--09223372036854775808".toList] = .error .overflow := by
  constructor
  · rw [compile_faults (by decide) (by decide), if_neg (by decide +kernel)]
  · rw [compile_faults (by decide) (by decide), if_pos (by decide +kernel)]

/-- the opposite of the least level has no room in a signed word -/
theorem compile_least_level : compile ["-z--9223372036854775808".toList] = .error .overflow := by
  rfl

end

end Machine

end TsxWorkbench.Utility
