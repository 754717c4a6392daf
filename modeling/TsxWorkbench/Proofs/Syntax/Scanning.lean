/-
What reading one token does to the place in a text. A tail is a rest of another if characters have been passed between
them and the offset has grown by their bytes.

- `passGap_rest`: blanks and comments are passed one character after the other.
- `mark?_spec`, `name?_solid`: a mark stands in the text as it is read, and neither a mark nor a name ends in a blank,
  also not a name that is spelled with escapes.
- `scan_sound`: the token that `scan` finds lies between the two tails that it gives, both rests of the text.
-/
import TsxWorkbench.Proofs.Number.ScriptText
import TsxWorkbench.Proofs.Text.Bytes
import TsxWorkbench.Syntax.Lexeme

namespace TsxWorkbench.Syntax

open Text Number

/-! ## Characters that are not blank -/

/-- no range of names meets a range of blanks -/
theorem nameRanges_apart : ∀ b ∈ blankRanges, ∀ r ∈ nameStartRanges ++ nameContinueRanges, b.2 < r.1 ∨ r.2 < b.1 := by
  decide +kernel

theorem isBlank_of_isNamePart {c : Char} (h : isNamePart c = true) : isBlank c = false := by
  simp only [isNamePart, isAsciiLetter, isAsciiDigit, Bool.or_eq_true, Bool.and_eq_true, decide_eq_true_eq] at h
  rcases h with (((h | h) | rfl) | rfl) | ⟨-, h⟩
  · exact isBlank_of_visible (by omega) (by omega)
  · exact isBlank_of_visible (by omega) (by omega)
  · decide
  · decide
  · obtain ⟨r, hr, hlo, hhi⟩ : ∃ r ∈ nameStartRanges ++ nameContinueRanges, r.1 ≤ c.toNat ∧ c.toNat ≤ r.2 := by
      rcases h with h | h
      · obtain ⟨r, hr, h⟩ := exists_range_of_inRanges h
        exact ⟨r, List.mem_append_left _ hr, h⟩
      · obtain ⟨r, hr, h⟩ := exists_range_of_inRanges h
        exact ⟨r, List.mem_append_right _ hr, h⟩
    refine Bool.eq_false_iff.2 fun hc => ?_
    obtain ⟨b, hb, hlo', hhi'⟩ := exists_range_of_inRanges hc
    have := nameRanges_apart b hb r hr
    omega

/-! ## Rests of a text -/

/-- a tail after some of its characters -/
def Tail.RestOf (u t : Tail) : Prop := ∃ passed, t.chars = passed ++ u.chars ∧ u.offset = t.offset + byteLen passed

namespace Tail.RestOf

variable {t u v : Tail} {source : List Char}

theorem refl (t : Tail) : t.RestOf t := ⟨[], rfl, rfl⟩

theorem trans (h : v.RestOf u) (h' : u.RestOf t) : v.RestOf t := by
  obtain ⟨more, hu, hv⟩ := h
  obtain ⟨passed, ht, hu'⟩ := h'
  exact ⟨passed ++ more, by rw [ht, hu, List.append_assoc], by rw [hv, hu', byteLen_append, Nat.add_assoc]⟩

theorem drop (t : Tail) (n : Nat) : (t.drop n).RestOf t := ⟨t.chars.take n, (List.take_append_drop n _).symm, rfl⟩

theorem offset_le (h : u.RestOf t) : t.offset ≤ u.offset := by
  obtain ⟨passed, -, h⟩ := h
  omega

theorem boundary (h : t.RestOf ⟨source, 0⟩) : Boundary source t.offset := by
  obtain ⟨passed, hs, ho⟩ := h
  exact ⟨passed, t.chars, hs, by rw [ho, Nat.zero_add]⟩

end Tail.RestOf

/-! ## Solid beginnings -/

/-- the first n characters of a text are some, and do not end in a blank -/
def SolidStart (cs : List Char) (n : Nat) : Prop :=
  ∃ pre c post, cs = pre ++ [c] ++ post ∧ isBlank c = false ∧ n = pre.length + 1

theorem SolidStart.one {c : Char} (hc : isBlank c = false) (cs : List Char) : SolidStart (c :: cs) 1 :=
  ⟨[], c, cs, rfl, hc, rfl⟩

theorem SolidStart.cons {cs : List Char} {n : Nat} (h : SolidStart cs n) (c : Char) : SolidStart (c :: cs) (n + 1) := by
  obtain ⟨pre, d, post, rfl, hd, rfl⟩ := h
  exact ⟨c :: pre, d, post, rfl, hd, rfl⟩

theorem SolidStart.of_cons {cs : List Char} {c : Char} {n : Nat} (h : SolidStart (c :: cs) (n + 1)) :
    (n = 0 ∧ isBlank c = false) ∨ SolidStart cs n := by
  obtain ⟨pre, d, post, hcs, hd, hn⟩ := h
  cases pre with
  | nil => exact .inl ⟨by simpa using hn, by simp_all⟩
  | cons e pre => exact .inr ⟨pre, d, post, by simpa using (List.cons.inj hcs).2, hd, by simpa using hn⟩

theorem SolidStart.takeWhile {p : Char → Bool} (hp : ∀ c, p c = true → isBlank c = false) {cs : List Char}
    (hne : cs.takeWhile p ≠ []) : SolidStart cs (cs.takeWhile p).length := by
  refine ⟨(cs.takeWhile p).dropLast, (cs.takeWhile p).getLast hne, cs.dropWhile p, ?_, ?_, ?_⟩
  · rw [List.dropLast_append_getLast hne, List.takeWhile_append_dropWhile]
  · exact hp _ (List.mem_takeWhile_imp (List.getLast_mem hne))
  · have := List.length_pos_of_ne_nil hne
    rw [List.length_dropLast]
    omega

/-- a text that is passed up to a solid end has one there -/
theorem Tail.RestOf.solid_drop {source : List Char} {t : Tail} (h : t.RestOf ⟨source, 0⟩) {n : Nat}
    (hn : SolidStart t.chars n) : Solid source (t.drop n).offset := by
  obtain ⟨passed, hs, ho⟩ := h
  obtain ⟨pre, c, post, ht, hc, rfl⟩ := hn
  refine ⟨passed ++ pre, c, post, ?_, hc, ?_⟩
  · rw [show source = passed ++ t.chars from hs, ht]
    simp
  · rw [Tail.drop, ho, ht, List.take_left' (by simp)]
    simp

/-! ## Gaps -/

theorem passGap_rest (part : GapPart) (offset : Nat) (newline : Bool) (cs : List Char) :
    (passGap part offset newline cs).tail.RestOf ⟨cs, offset⟩ := by
  have step (passed : List Char) {cs : List Char} {offset : Nat} {u : Tail}
      (h : u.RestOf ⟨cs, offset + byteLen passed⟩) : u.RestOf ⟨passed ++ cs, offset⟩ :=
    h.trans ⟨passed, rfl, rfl⟩
  fun_induction passGap part offset newline cs with
  | case1 | case2 => exact .refl _
  | case3 offset newline cs ih => exact step ['/', '/'] ih
  | case4 offset newline cs ih => exact step ['/', '*'] ih
  | case5 offset newline cs ih => exact step ['<', '!', '-', '-'] ih
  | case6 start offset newline cs ih => exact step ['*', '/'] ih
  | case7 offset newline c cs _ _ _ _ ih => exact step [c] ih
  | case8 => exact .refl _
  | case9 offset newline c cs ih => exact step [c] ih
  | case10 start offset newline c cs _ ih => exact step [c] ih

theorem passBlanks_rest (t : Tail) : t.passBlanks.RestOf t := passGap_rest .blanks t.offset false t.chars

/-! ## Names -/

theorem isHexDigit_of_natural? (cs : List Char) {c : Char} {n : Nat} (h : natural? 16 (cs ++ [c]) = some n) :
    isHexDigit c = true := by
  rw [natural?, if_neg (by simp), digitsValue?, List.foldl_concat] at h
  revert h
  rw [isHexDigit]
  cases digitValue? 16 c with
  | some d => simp
  | none => cases List.foldl _ _ cs <;> simp

/-- an escape in a name ends in a hexadecimal digit or a brace -/
theorem codeEscape?_solid {cs : List Char} {n used : Nat} (h : codeEscape? cs = some (n, used)) :
    SolidStart cs used := by
  unfold codeEscape? at h
  split at h
  · rename_i a b rest
    obtain ⟨m, hm, h⟩ := Option.map_eq_some_iff.1 h
    cases h
    exact ⟨['x', a], b, rest, rfl, isBlank_of_isHexDigit (isHexDigit_of_natural? [a] hm), rfl⟩
  · rename_i rest
    dsimp only at h
    split at h
    · rename_i post hpost
      obtain ⟨m, hm, h⟩ := Option.bind_eq_some_iff.1 h
      split_ifs at h
      cases h
      refine ⟨'u' :: '\x7b' :: rest.takeWhile isHexDigit, '\x7d', post, ?_, by decide, by simp⟩
      have := List.take_append_drop (rest.takeWhile isHexDigit).length rest
      rw [hpost, ← List.prefix_iff_eq_take.1 (List.takeWhile_prefix _)] at this
      simpa using this.symm
    · simp at h
  · rename_i a b c d rest _
    obtain ⟨m, hm, h⟩ := Option.map_eq_some_iff.1 h
    cases h
    exact ⟨['u', a, b, c], d, rest, rfl, isBlank_of_isHexDigit (isHexDigit_of_natural? [a, b, c] hm), rfl⟩
  · simp at h

theorem nameFrom_solid (k : Nat) (cs : List Char) (hk : k = 0 ∨ SolidStart cs k) :
    ((nameFrom k cs).2.1 = 0 ∧ k = 0) ∨ SolidStart cs (nameFrom k cs).2.1 := by
  fun_induction nameFrom k cs with
  | case1 k => exact .inl ⟨rfl, hk.resolve_right fun ⟨pre, c, post, h, _⟩ => by simp at h⟩
  | case2 k c cs name count escaped hrec ih =>
    -- one more character of an escape
    rw [hrec] at ih
    rcases hk.resolve_left (Nat.succ_ne_zero k) |>.of_cons with ⟨rfl, hc⟩ | hk
    · rcases ih (.inl rfl) with ⟨h, -⟩ | h
      · obtain rfl : count = 0 := h
        exact .inr (.one hc cs)
      · exact .inr (h.cons c)
    · rcases ih (.inr hk) with ⟨h, rfl⟩ | h
      · obtain ⟨pre, _, _, _, _, hn⟩ := hk
        omega
      · exact .inr (h.cons c)
  | case3 c cs hc name count escaped hrec ih =>
    rw [hrec] at ih
    rcases ih (.inl rfl) with ⟨h, -⟩ | h
    · obtain rfl : count = 0 := h
      exact .inr (.one (isBlank_of_isNamePart hc) cs)
    · exact .inr (h.cons c)
  | case4 cs d used hescape name count escaped hrec _ ih =>
    rw [hrec] at ih
    have hused : SolidStart cs used := by
      unfold escapedNamePart? at hescape
      split at hescape
      · split at hescape
        · split_ifs at hescape
          cases hescape
          exact codeEscape?_solid ‹_›
        · simp at hescape
      · simp at hescape
    rcases ih (.inr hused) with ⟨h, rfl⟩ | h
    · obtain ⟨pre, _, _, _, _, hn⟩ := hused
      omega
    · exact .inr (h.cons _)
  | case5 | case6 => exact .inl ⟨rfl, rfl⟩

theorem name?_solid {cs name : List Char} {count : Nat} {escaped : Bool} (h : name? cs = some (name, count, escaped)) :
    SolidStart cs count := by
  have hsolid := nameFrom_solid 0 cs (.inl rfl)
  unfold name? at h
  split at h
  · simp at h
  · rename_i c name' count' escaped' hname
    split_ifs at h
    cases h
    rw [hname] at hsolid
    refine hsolid.resolve_left fun ⟨h0, _⟩ => ?_
    obtain rfl : count = 0 := h0
    have hnil (k : Nat) (cs : List Char) : (nameFrom k cs).2.1 = 0 → (nameFrom k cs).1 = [] := by
      fun_cases nameFrom k cs <;> simp_all
    have := hnil 0 cs (by rw [hname])
    rw [hname] at this
    simp at this

/-! ## Marks -/

theorem isBlank_of_mem_shortMarks {c : Char} (h : c ∈ shortMarks) : isBlank c = false := by
  have hall : (shortMarks.all fun c => !isBlank c) = true := by decide
  simpa using List.all_eq_true.1 hall c h

theorem isBlank_of_mem_longMarks {m : String} (h : m ∈ longMarks) :
    m.toList ≠ [] ∧ ∀ c ∈ m.toList, isBlank c = false := by
  have hall : (longMarks.all fun m => !m.toList.isEmpty && m.toList.all fun c => !isBlank c) = true := by decide
  simpa using List.all_eq_true.1 hall m h

/-- a mark that is read is the beginning of the text, and has no blanks -/
theorem mark?_spec {cs : List Char} {m : String} (h : mark? cs = some m) :
    ∃ rest, cs = m.toList ++ rest ∧ m.toList ≠ [] ∧ ∀ c ∈ m.toList, isBlank c = false := by
  cases cs with
  | nil => simp [mark?] at h
  | cons c rest =>
    dsimp only [mark?] at h
    rcases ite_eq_iff.1 h with ⟨hquestion, h⟩ | ⟨-, h⟩
    · cases h
      obtain rfl : c = '?' := by simp_all
      have hmark : isBlank '?' = false := by decide
      exact ⟨rest, rfl, by simp, by simpa using hmark⟩
    · split at h
      · rename_i m' hfind
        cases h
        have hprefix : m.toList.isPrefixOf (c :: rest) = true := by simpa using List.find?_some hfind
        obtain ⟨post, hpost⟩ := List.isPrefixOf_iff_prefix.1 hprefix
        exact ⟨post, hpost.symm, isBlank_of_mem_longMarks (List.mem_of_find?_eq_some hfind)⟩
      · rcases ite_eq_iff.1 h with ⟨hmem, h⟩ | ⟨-, h⟩
        · cases h
          exact ⟨rest, by simp, by simp, by simpa using isBlank_of_mem_shortMarks (List.contains_iff_mem.1 hmem)⟩
        · simp at h

/-! ## One token -/

/-- how a lexeme lies in the n characters that it was read from: a mark is those characters, and neither a mark nor a
word ends in a blank -/
def Lexeme.Placed (cs : List Char) (n : Nat) : Lexeme → Prop
  | .mark m => ∃ rest, cs = m.toList ++ rest ∧ n = m.length ∧ m.toList ≠ [] ∧ ∀ c ∈ m.toList, isBlank c = false
  | .word .. => SolidStart cs n
  | _ => True

theorem basedNumber_placed {base : Nat} {cs ds : List Char} {n k : Nat} {found : Lexeme}
    (h : basedNumber base cs = some (found, n)) : found.Placed ds k := by
  unfold basedNumber at h
  dsimp only at h
  split at h
  · cases h
  · split at h <;> cases h <;> trivial

theorem decimalNumber_placed {cs ds : List Char} {n k : Nat} {found : Lexeme}
    (h : decimalNumber cs = some (found, n)) : found.Placed ds k := by
  unfold decimalNumber at h
  dsimp only at h
  split at h
  · cases h
    trivial
  · obtain ⟨x, -, h⟩ := Option.map_eq_some_iff.1 h
    cases h
    trivial

theorem number?_placed {cs ds : List Char} {n k : Nat} {found : Lexeme}
    (h : number? cs = some (found, n)) : found.Placed ds k := by
  unfold number? at h
  split at h
  case h_7 =>
    dsimp only at h
    split_ifs at h
    · exact decimalNumber_placed h
    · obtain ⟨x, -, h⟩ := Option.map_eq_some_iff.1 h
      cases h
      trivial
  case h_8 => exact decimalNumber_placed h
  all_goals exact basedNumber_placed h

theorem lexeme_placed (t : Tail) : (lexeme t).1.Placed t.chars (lexeme t).2 := by
  unfold lexeme
  split
  · trivial
  · dsimp only
    split_ifs
    · -- a number
      split
      · trivial
      · rename_i found n hn
        have hplaced : found.Placed t.chars n := number?_placed hn
        split
        · split_ifs <;> trivial
        · exact hplaced
    · split <;> trivial
    · split <;> trivial
    · -- a name or a mark
      split
      · exact name?_solid ‹_›
      · split
        · rename_i m hm
          obtain ⟨rest, h, hne, hblank⟩ := mark?_spec hm
          exact ⟨rest, h, rfl, hne, hblank⟩
        · trivial

/-- a token between two tails of a text, with the lexeme that lies there -/
structure Step.Sound (source : List Char) (s : Step) : Prop where
  head : s.head.RestOf ⟨source, 0⟩
  tail : s.tail.RestOf s.head
  span : s.token.span = ⟨s.head.offset, s.tail.offset⟩
  /-- a mark is the text between the tails -/
  mark : ∀ m, s.token.lexeme = .mark m →
    s.head.chars = m.toList ++ s.tail.chars ∧ m.toList ≠ [] ∧ ∀ c ∈ m.toList, isBlank c = false
  /-- a word does not end in a blank -/
  word : ∀ name escaped, s.token.lexeme = .word name escaped → Solid source s.tail.offset

theorem scan_head_rest (t : Tail) : (scan t).head.RestOf t := passGap_rest .blanks t.offset false t.chars

theorem scan_sound {source : List Char} {t : Tail} (h : t.RestOf ⟨source, 0⟩) : (scan t).Sound source := by
  have hhead := (scan_head_rest t).trans h
  unfold scan at hhead ⊢
  dsimp only at hhead ⊢
  generalize passGap .blanks t.offset false t.chars = gap at hhead ⊢
  cases gap.unclosed with
  | some offset => exact ⟨hhead, .drop _ _, rfl, (by simp), (by simp)⟩
  | none =>
    have hplaced := lexeme_placed gap.tail
    refine ⟨hhead, .drop _ _, rfl, fun m hm => ?_, fun name escaped hname => ?_⟩
    · dsimp only at hm ⊢
      rw [hm] at hplaced
      obtain ⟨rest, hchars, hlen, hne, hblank⟩ := hplaced
      refine ⟨?_, hne, hblank⟩
      rw [Tail.drop, hlen, hchars, ← String.length_toList, List.drop_left]
    · dsimp only at hname ⊢
      rw [hname] at hplaced
      exact hhead.solid_drop hplaced

end TsxWorkbench.Syntax
