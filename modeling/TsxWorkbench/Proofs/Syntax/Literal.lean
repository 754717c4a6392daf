/-
Written texts as the lexer finds them. In the quotes of an attribute a text stands as it is, and its character
references are decoded; as a quoted string it is escaped, character by character.

- `decodeEntities_eq_self_iff`: decoding leaves a text as it is if and only if no reference stands in it.
- `stringFrom_quote`: from a quoted string the text is read back, whatever follows the string.
- `scan_quote`, `scan_mark`, `scan_className`: the tokens of a written attribute.
-/
import TsxWorkbench.Json.Value
import TsxWorkbench.Proofs.Text.Bytes
import TsxWorkbench.Syntax.Entity
import TsxWorkbench.Syntax.Lexeme

namespace TsxWorkbench.Syntax

open Text Number

variable {c : Char} {cs rest v : List Char} {offset : Nat}

/-! ## Character references -/

/-- a character reference stands somewhere in a text -/
def HasReference (cs : List Char) : Prop := ∃ before after, cs = before ++ '&' :: after ∧ (reference? after).isSome

theorem reference?_length {d : Char} {n : Nat} (h : reference? cs = some (d, n)) : 0 < n ∧ n ≤ cs.length := by
  unfold reference? at h
  dsimp only at h
  split at h
  · obtain ⟨_, -, hfound⟩ := Option.map_eq_some_iff.1 h
    cases hfound
    omega
  · cases h

theorem hasReference_cons : HasReference (c :: cs) ↔ (c = '&' ∧ (reference? cs).isSome) ∨ HasReference cs := by
  constructor
  · rintro ⟨before, after, hcut, hsome⟩
    cases before with
    | nil =>
      cases hcut
      exact .inl ⟨rfl, hsome⟩
    | cons b before =>
      cases hcut
      exact .inr ⟨before, after, rfl, hsome⟩
  · rintro (⟨rfl, hsome⟩ | ⟨before, after, rfl, hsome⟩)
    · exact ⟨[], cs, rfl, hsome⟩
    · exact ⟨c :: before, after, rfl, hsome⟩

theorem not_hasReference_nil : ¬HasReference [] := by
  rintro ⟨before, after, h, -⟩
  cases before <;> cases h

/-- a reference is longer than the character it stands for -/
theorem length_decodeEntities_le (cs : List Char) : (decodeEntities cs).length ≤ cs.length := by
  match cs with
  | [] => exact Nat.le_refl _
  | c :: cs =>
    have hrest := length_decodeEntities_le cs
    by_cases hc : c = '&'
    · subst hc
      rw [decodeEntities_ampersand]
      cases href : reference? cs with
      | none => exact Nat.succ_le_succ hrest
      | some found =>
        have hdropped := length_decodeEntities_le (cs.drop found.2)
        rw [List.length_drop] at hdropped
        simp only [List.length_cons]
        omega
    · rw [decodeEntities_plain hc]
      exact Nat.succ_le_succ hrest
termination_by cs.length
decreasing_by all_goals simp only [List.length_cons, List.length_drop]; omega

/-- **What decoding leaves.** A text is decoded to itself if and only if no character reference stands in it. -/
theorem decodeEntities_eq_self_iff : decodeEntities cs = cs ↔ ¬HasReference cs := by
  induction cs with
  | nil => exact iff_of_true rfl not_hasReference_nil
  | cons c cs ih =>
    rw [hasReference_cons, not_or, ← ih]
    by_cases hc : c = '&'
    · subst hc
      rw [decodeEntities_ampersand]
      cases href : reference? cs with
      | none => simp
      | some found =>
        -- the text got shorter
        have hlength := reference?_length (d := found.1) (n := found.2) href
        have hdropped := length_decodeEntities_le (cs.drop found.2)
        rw [List.length_drop] at hdropped
        refine iff_of_false (fun h => ?_) (by simp)
        have := congrArg List.length h
        simp only [List.length_cons] at this
        omega
    · simp [decodeEntities_plain hc, hc]

/-! ## Quoted strings -/

/-- the characters of an escape are passed -/
theorem stringFrom_passed (quote : Char) (passed cs : List Char) : stringFrom quote passed.length (passed ++ cs) =
    (stringFrom quote 0 cs).map fun r => (r.1, r.2 + passed.length) := by
  induction passed with
  | nil => simp
  | cons c passed ih =>
    rw [List.cons_append, List.length_cons, stringFrom, ih, Option.map_map]
    rfl

/-- a character that is written as it is, or an escape that stands for it -/
theorem escapeChar_cases (c : Char) :
    (Json.escapeChar c = [c] ∧ c ≠ '\x22' ∧ c ≠ '\\' ∧ c ≠ '\n' ∧ c ≠ '\r') ∨
      ∃ body, Json.escapeChar c = '\\' :: body ∧ ∀ rest, escape? (body ++ rest) = some ([c], body.length) := by
  by_cases hspecial : c ∈ ['\x22', '\\', '\x08', '\x0c', '\n', '\r', '\t']
  · simp only [List.mem_cons, List.not_mem_nil, or_false] at hspecial
    right
    rcases hspecial with rfl | rfl | rfl | rfl | rfl | rfl | rfl
    all_goals exact ⟨_, rfl, fun _ => rfl⟩
  simp only [List.mem_cons, List.not_mem_nil, or_false, not_or] at hspecial
  by_cases hcontrol : c.toNat < 0x20
  · right
    have hdigits : ∀ n < 0x20, natural? 16 ['0', '0', (n / 16).digitChar, (n % 16).digitChar] = some n := by decide
    refine ⟨_, Json.escapeChar_control hcontrol (by simp [hspecial]), fun rest => ?_⟩
    have hvalid : c.toNat.isValidChar := c.valid
    have hread : codeEscape? ('u' :: '0' :: '0' :: (c.toNat / 16).digitChar :: (c.toNat % 16).digitChar :: rest) =
        some (c.toNat, 5) := by
      simp [codeEscape?, hdigits _ hcontrol]
    have hlow : ¬(0xD800 ≤ c.toNat ∧ c.toNat ≤ 0xDBFF) := by omega
    simp [escape?, hread, hlow, unitText, hvalid, show isLineEnd 'u' = false from rfl]
  · left
    simp [Json.escapeChar, hspecial, hcontrol]

theorem stringFrom_escapeChar (c : Char) (cs : List Char) : stringFrom '\x22' 0 (Json.escapeChar c ++ cs) =
    (stringFrom '\x22' 0 cs).map fun r => (c :: r.1, r.2 + (Json.escapeChar c).length) := by
  rcases escapeChar_cases c with ⟨hplain, hquote, hslash, hnewline, hreturn⟩ | ⟨body, hbody, hescape⟩
  · rw [hplain]
    simp [stringFrom, hquote, hslash, hnewline, hreturn]
  · rw [hbody]
    simp [stringFrom, hescape, stringFrom_passed, Function.comp_def, Nat.add_assoc]

/-- **Quoted strings are read back.** -/
theorem stringFrom_quote (v rest : List Char) : stringFrom '\x22' 0 (v.flatMap Json.escapeChar ++ '\x22' :: rest) =
    some (v, (v.flatMap Json.escapeChar).length + 1) := by
  induction v with
  | nil => simp [stringFrom]
  | cons c v ih =>
    rw [List.flatMap_cons, List.append_assoc, stringFrom_escapeChar, ih, Option.map_some, List.length_append]
    congr 2
    omega

/-! ## Tokens -/

theorem drop_written (text rest : List Char) (offset : Nat) :
    (⟨text ++ rest, offset⟩ : Tail).drop text.length = ⟨rest, offset + byteLen text⟩ := by simp [Tail.drop]

/-- a character that is no blank and starts no comment is where the gap ends -/
theorem passGap_of_solid (hgap : isGap c = false) (hslash : c ≠ '/') (hless : c ≠ '<') (newline : Bool) :
    passGap .blanks offset newline (c :: cs) = ⟨⟨c :: cs, offset⟩, newline, none⟩ := by
  simp [passGap, hgap, hslash, hless]

/-- the step over a token that starts a rest of the text -/
def Step.over (lexeme : Lexeme) (text rest : List Char) (offset : Nat) : Step :=
  ⟨⟨text ++ rest, offset⟩, ⟨lexeme, ⟨offset, offset + byteLen text⟩, false⟩, ⟨rest, offset + byteLen text⟩⟩

theorem scan_of_lexeme {text : List Char} {found : Lexeme} (hne : text = c :: cs) (hgap : isGap c = false)
    (hslash : c ≠ '/') (hless : c ≠ '<') (hfound : lexeme ⟨text ++ rest, offset⟩ = (found, text.length)) :
    scan ⟨text ++ rest, offset⟩ = .over found text rest offset := by
  have hgap? : passGap .blanks offset false (text ++ rest) = ⟨⟨text ++ rest, offset⟩, false, none⟩ := by
    rw [hne]
    exact passGap_of_solid hgap hslash hless false
  unfold scan
  dsimp only
  rw [hgap?]
  dsimp only
  rw [hfound, drop_written]
  rfl

theorem scan_quote (v rest : List Char) (offset : Nat) : scan ⟨Json.quote v ++ rest, offset⟩ =
    .over (.string (String.ofList v)) (Json.quote v) rest offset := by
  refine scan_of_lexeme rfl (by decide) (by decide) (by decide) ?_
  have hread := stringFrom_quote v rest
  have htext : Json.quote v ++ rest = '\x22' :: (v.flatMap Json.escapeChar ++ '\x22' :: rest) := by simp [Json.quote]
  rw [htext]
  unfold lexeme
  dsimp only
  rw [if_neg, if_pos (.inl rfl), hread]
  · simp [Json.quote]
  · cases v.flatMap Json.escapeChar ++ '\x22' :: rest <;> simp [isDigit]

/-- a mark of one character, where no longer one starts -/
theorem scan_mark {mark : String} (htext : mark.toList = [c]) (hmark : c ∈ shortMarks)
    (hlong : ∀ m ∈ longMarks, m.toList.isPrefixOf (c :: rest) = false) (hplain : c ∉ ['/', '<', '.', '?']) :
    scan ⟨c :: rest, offset⟩ = .over (.mark mark) [c] rest offset := by
  obtain rfl : mark = String.singleton c := String.ext (by simpa using htext)
  have hall : (shortMarks.all fun c => !isGap c && !isDigit c && !isNamePart c && c ≠ '\x22' && c ≠ '\x27' && c ≠ '#' &&
    c ≠ '\\') = true := by decide
  have hc := List.all_eq_true.1 hall c hmark
  simp only [Bool.and_eq_true, Bool.not_eq_true', decide_eq_true_eq] at hc
  obtain ⟨⟨⟨⟨⟨⟨hgap, hdigit⟩, hname⟩, hquote⟩, htick⟩, hhash⟩, hslash⟩ := hc
  simp only [List.mem_cons, List.not_mem_nil, or_false, not_or] at hplain
  obtain ⟨hdivide, hless, hdot, hquestion⟩ := hplain
  refine scan_of_lexeme (show [c] = c :: [] from rfl) hgap hdivide hless ?_
  have hname? : name? (c :: rest) = none := by simp [name?, nameFrom, hname, hslash]
  have hmark? : mark? (c :: rest) = some (String.singleton c) := by
    have hnone : longMarks.find? (fun m => m.toList.isPrefixOf (c :: rest)) = none :=
      List.find?_eq_none.2 fun m hm => by simp [hlong m hm]
    simp [mark?, hquestion, hnone, hmark]
  show lexeme ⟨c :: rest, offset⟩ = _
  unfold lexeme
  dsimp only
  rw [if_neg, if_neg (by simp [hquote, htick]), if_neg hhash, hname?, hmark?]
  · simp
  · cases rest <;> simp [hdigit, hdot]

theorem scan_brace {mark : String} (htext : mark.toList = [c]) (hc : c = '\x7b' ∨ c = '\x7d') (rest : List Char)
    (offset : Nat) : scan ⟨c :: rest, offset⟩ = .over (.mark mark) [c] rest offset := by
  have hlong : (longMarks.all fun m => !m.toList.isPrefixOf (c :: rest)) = true := by rcases hc with rfl | rfl <;> rfl
  rcases hc with rfl | rfl <;> exact scan_mark htext (by decide) (by simpa using hlong) (by decide)

/-- an equals sign before a value -/
theorem scan_equals (hc : c = '\x22' ∨ c = '\x27' ∨ c = '\x7b') (cs : List Char) (offset : Nat) :
    scan ⟨'=' :: c :: cs, offset⟩ = .over (.mark "=") ['='] (c :: cs) offset := by
  have hlong : (longMarks.all fun m => !m.toList.isPrefixOf ('=' :: c :: cs)) = true := by
    rcases hc with rfl | rfl | rfl <;> rfl
  exact scan_mark (by decide) (by decide) (by simpa using hlong) (by decide)

theorem scan_className (rest : List Char) (offset : Nat) : scan ⟨" className=".toList ++ rest, offset⟩ =
    .over (.word "className" false) "className".toList ('=' :: rest) (offset + 1) := by
  rfl

end TsxWorkbench.Syntax
