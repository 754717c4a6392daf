/-
Blank characters: the 25 code points with the Unicode property White_Space, and the trimming and word splitting that
rest on them. A zero-width space, a byte order mark and the separators U+001C to U+001F are not blank.
-/

namespace TsxWorkbench.Text

/-- code point ranges with the property White_Space -/
def blankRanges : List (Nat × Nat) :=
  [(0x09, 0x0D), (0x20, 0x20), (0x85, 0x85), (0xA0, 0xA0), (0x1680, 0x1680), (0x2000, 0x200A), (0x2028, 0x2029),
   (0x202F, 0x202F), (0x205F, 0x205F), (0x3000, 0x3000)]

/-- membership of a code point in a list of closed ranges -/
def inRanges (ranges : List (Nat × Nat)) (c : Char) : Bool :=
  ranges.any fun r => r.1 ≤ c.toNat && c.toNat ≤ r.2

theorem exists_range_of_inRanges {ranges : List (Nat × Nat)} {c : Char} (h : inRanges ranges c = true) :
    ∃ r ∈ ranges, r.1 ≤ c.toNat ∧ c.toNat ≤ r.2 := by
  simpa [inRanges] using h

/-- a character with the property White_Space -/
def isBlank (c : Char) : Bool := inRanges blankRanges c

/-- no ASCII character but the space and the control characters is blank -/
theorem isBlank_of_visible {c : Char} (h : 33 ≤ c.toNat) (h' : c.toNat ≤ 126) : isBlank c = false := by
  have apart : ∀ b ∈ blankRanges, b.2 ≤ 32 ∨ 127 ≤ b.1 := by decide
  refine Bool.eq_false_iff.2 fun hc => ?_
  obtain ⟨b, hb, hlo, hhi⟩ := exists_range_of_inRanges hc
  have := apart b hb
  omega

theorem isBlank_of_all {cs : List Char} (h : (cs.all fun c => !isBlank c) = true) : ∀ c ∈ cs, isBlank c = false :=
  fun c hc => by simpa using List.all_eq_true.1 h c hc

def trimStart (cs : List Char) : List Char := cs.dropWhile isBlank

def trimEnd (cs : List Char) : List Char := (cs.reverse.dropWhile isBlank).reverse

def trim (cs : List Char) : List Char := trimEnd (trimStart cs)

/-- words so far, with the word being read -/
private def wordsFrom (word : List Char) : List Char → List (List Char)
  | [] => if word.isEmpty then [] else [word.reverse]
  | c :: cs =>
    if isBlank c then
      if word.isEmpty then wordsFrom [] cs else word.reverse :: wordsFrom [] cs
    else wordsFrom (c :: word) cs

/-- maximal runs of characters that are not blank -/
def words (cs : List Char) : List (List Char) := wordsFrom [] cs

private theorem wordsFrom_solid (word cs : List Char) (hword : ∀ c ∈ word, isBlank c = false) :
    ∀ w ∈ wordsFrom word cs, ∀ c ∈ w, isBlank c = false := by
  fun_induction wordsFrom word cs with
  | case1 => simp
  | case2 word hne => simpa using hword
  | case3 word c cs hblank hempty ih => exact ih (by simp)
  | case4 word c cs hblank hempty ih =>
    rw [List.forall_mem_cons]
    exact ⟨by simpa using hword, ih (by simp)⟩
  | case5 word c cs hblank ih => exact ih (List.forall_mem_cons.2 ⟨Bool.eq_false_iff.2 hblank, hword⟩)

/-- words hold no blanks -/
theorem isBlank_of_mem_words {cs w : List Char} (h : w ∈ words cs) : ∀ c ∈ w, isBlank c = false :=
  wordsFrom_solid [] cs (by simp) w h

private theorem wordsFrom_nonempty (word cs : List Char) : ∀ w ∈ wordsFrom word cs, w ≠ [] := by
  fun_induction wordsFrom word cs with
  | case1 => simp
  | case2 word hne => simpa using hne
  | case3 word c cs hblank hempty ih => exact ih
  | case4 word c cs hblank hempty ih =>
    rw [List.forall_mem_cons]
    exact ⟨by simpa using hempty, ih⟩
  | case5 word c cs hblank ih => exact ih

theorem ne_nil_of_mem_words {cs w : List Char} (h : w ∈ words cs) : w ≠ [] := wordsFrom_nonempty [] cs w h

private theorem wordsFrom_append (word : List Char) {w : List Char} (hw : ∀ c ∈ w, isBlank c = false)
    (rest : List Char) : wordsFrom word (w ++ rest) = wordsFrom (w.reverse ++ word) rest := by
  induction w generalizing word with
  | nil => rfl
  | cons c cs ih =>
    rw [List.forall_mem_cons] at hw
    rw [List.cons_append, wordsFrom, if_neg (by simp [hw.1]), ih _ hw.2]
    simp

/-- a run without blanks is a word of its own if a blank follows -/
theorem words_append_blank {w : List Char} (hne : w ≠ []) (hw : ∀ c ∈ w, isBlank c = false) {c : Char}
    (hc : isBlank c = true) (rest : List Char) : words (w ++ c :: rest) = w :: words rest := by
  rw [words, wordsFrom_append [] hw]
  simp [wordsFrom, hc, hne, words]

/-- blanks before the words make no difference -/
theorem words_cons_blank {c : Char} (hc : isBlank c = true) (cs : List Char) : words (c :: cs) = words cs := by
  simp [words, wordsFrom, hc]

theorem words_of_solid {w : List Char} (hne : w ≠ []) (hw : ∀ c ∈ w, isBlank c = false) : words w = [w] := by
  have happ := wordsFrom_append [] hw []
  rw [List.append_nil] at happ
  rw [words, happ]
  simp [wordsFrom, hne]

/-- words put together with a space between them are read back -/
theorem words_joined {ws : List (List Char)} (h : ∀ w ∈ ws, w ≠ [] ∧ ∀ c ∈ w, isBlank c = false) :
    words (List.intercalate [' '] ws) = ws := by
  induction ws with
  | nil => rfl
  | cons w ws ih =>
    rw [List.forall_mem_cons] at h
    obtain ⟨⟨hne, hsolid⟩, hrest⟩ := h
    cases ws with
    | nil => rw [List.intercalate_singleton, words_of_solid hne hsolid]
    | cons next rest =>
      rw [List.intercalate_cons_cons, List.append_assoc, List.singleton_append,
        words_append_blank hne hsolid (by decide), ih hrest]

end TsxWorkbench.Text
