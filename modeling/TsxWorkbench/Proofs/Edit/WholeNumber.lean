/-
Whole numbers where they are written: as values in an inline style, as keys of objects, in texts put together from
literals, and in the classes of lengths.

- `equal_step_iff`: a number has the class of a step of a scale if and only if it is that number of pixels.
- `pixels?_of_whole`: a whole number is a length unless it is negative.
- `writtenAs_saturated`: all these places write the number held to 64 bits.
- `wholeNumbers_written`: a whole number below 10^21 is written as itself, in every place, if and only if it fits into
  64 bits.
-/
import TsxWorkbench.Analysis.StaticValue
import TsxWorkbench.Edit.ClassToken
import TsxWorkbench.Proofs.Number.Numeral

namespace TsxWorkbench.Edit

open Number Text Syntax Analysis

/-! ## Lengths -/

/-- the scale of a length field, with the name of its classes -/
def StyleField.lengthScale? : StyleField → Option (List (Nat × String) × String)
  | .borderWidth => some (widthScale, "border")
  | .borderRadius => some (radiusScale, "rounded")
  | .fontSize => some (fontScale, "text")
  | _ => none

/-- the class of a whole number of pixels: the step of the scale with this size, or the number in brackets if the scale
has none -/
inductive LengthClass (scale : List (Nat × String)) (name : String) (k : Int) : List Char → Prop
  | step {size : Nat} {token : String} (hstep : (size, token) ∈ scale) (hsize : (size : Int) = k) :
    LengthClass scale name k token.toList
  | bracketed {digits : List Char} (hnone : ∀ row ∈ scale, (row.1 : Int) ≠ k) (hdigits : Numeral k digits) :
    LengthClass scale name k ((name ++ "-[").toList ++ digits ++ "px]".toList)

/-- sizes of all scales -/
def scaleSizes : List Nat := (widthScale ++ (radiusScale ++ fontScale)).map Prod.fst

/-- the sizes of the scales are doubles and small -/
theorem scaleSizes_whole : ∀ size ∈ scaleSizes, (Binary64.ofNat size).isDouble = true ∧
    (Binary64.ofNat size).toInt? = some (size : Int) ∧ (size : Int) < Int.pow 2 63 - 1 := by
  decide +kernel

variable {scale : List (Nat × String)} {name : String} {x : Binary64} {n : Int}

theorem mem_scaleSizes {f : StyleField} (hf : f.lengthScale? = some (scale, name)) {row : Nat × String}
    (hrow : row ∈ scale) : row.1 ∈ scaleSizes := by
  refine List.mem_map_of_mem ?_
  cases f with
  | borderWidth =>
    cases hf
    exact List.mem_append_left _ hrow
  | borderRadius =>
    cases hf
    exact List.mem_append_right _ (List.mem_append_left _ hrow)
  | fontSize =>
    cases hf
    exact List.mem_append_right _ (List.mem_append_right _ hrow)
  | _ => cases hf

/-- a whole number is equal to a step of a scale if and only if held to 64 bits it is that step -/
theorem equal_step_iff {size : Nat} (hsize : size ∈ scaleSizes) (hx : x.isDouble = true) (hn : x.toInt? = some n) :
    x.equal (.ofNat size) = true ↔ (size : Int) = Binary64.saturate64 n := by
  obtain ⟨hdouble, hwhole, hlow⟩ := scaleSizes_whole size hsize
  rw [Binary64.equal_iff_of_whole hx hdouble hn hwhole, ← Binary64.saturate64_eq_natCast_iff hlow]
  exact eq_comm

/-- a whole number of pixels is written as the class of the number held to 64 bits -/
theorem lengthClass_of_whole (hscale : ∀ row ∈ scale, row.1 ∈ scaleSizes) (name : String) (hx : x.isDouble = true)
    (hn : x.toInt? = some n) (hsmall : n.natAbs < Nat.pow 10 21) :
    LengthClass scale name (Binary64.saturate64 n) ((scaled? scale x).getD (pixelToken name x)) := by
  unfold scaled?
  -- the steps of a scale are small, so that holding the number to 64 bits makes no step of it and undoes none
  cases hfound : scale.find? fun row => x.equal (.ofNat row.1) with
  | none =>
    rw [List.find?_eq_none] at hfound
    refine .bracketed (fun row hrow hsize => hfound row hrow ?_) (Binary64.numeral_scriptText hn hsmall)
    exact (equal_step_iff (hscale row hrow) hx hn).2 hsize
  | some row =>
    have hrow := List.mem_of_find?_eq_some hfound
    have hequal := List.find?_some hfound
    exact .step hrow ((equal_step_iff (hscale row hrow) hx hn).1 hequal)

/-- a whole number is a length unless it is negative -/
theorem pixels?_of_whole (hx : x.isDouble = true) (hn : x.toInt? = some n) :
    pixels? (.number x) = if n < 0 then none else some x := by
  obtain ⟨s, m, q, rfl⟩ := Binary64.finite_of_toInt? hn
  simp only [Binary64.isDouble, Bool.and_eq_true, decide_eq_true_eq] at hx
  have hsign := Binary64.neg_iff_of_toInt? hx.1.2 hn
  unfold pixels?
  dsimp only
  simp only [hsign, Bool.and_eq_true, bne_iff_ne]

theorem formatToken?_of_length {f : StyleField} (hf : f.lengthScale? = some (scale, name)) (v : StyleValue) :
    formatToken? f v = (pixels? v).map fun x => (scaled? scale x).getD (pixelToken name x) := by
  cases f <;> cases hf <;> rfl

/-! ## Places -/

/-- a number is written as a whole number wherever numbers are written -/
structure WrittenAs (x : Binary64) (k : Int) : Prop where
  /-- as a value in an inline style -/
  style : Numeral k (StyleValue.number x).script
  /-- as a key of an object -/
  key : ∀ place, ∃ key, staticKey? (.numLit place x) = some key ∧ Numeral k key.toList
  /-- in a text that the source tells, at any level of its sums, behind or in front of another text -/
  folded : ∀ {level : Nat} {span : Span} {part number : Node} {s : String},
    operandWith (textWithin level) part = some (.text s) →
    operandWith (textWithin level) number = some (.number x) → ∃ t : String, Numeral k t.toList ∧
      textWithin (level + 1) (.binary span "+" part number) = some (s ++ t) ∧
      textWithin (level + 1) (.binary span "+" number part) = some (t ++ s)
  /-- in the class of a length, also if the length is given as a text; a negative number is no length -/
  length : ∀ {f : StyleField} {scale : List (Nat × String)} {name : String}, f.lengthScale? = some (scale, name) →
    ((formatToken? f (.number x)).isSome = true ↔ 0 ≤ k) ∧
    ∀ v token, pixels? v = some x → formatToken? f v = some token → LengthClass scale name k token

/-- the text of a sum of two operands that are known -/
theorem textWithin_sum {level : Nat} {span : Span} {left right : Node} {a b : Operand}
    (ha : operandWith (textWithin level) left = some a) (hb : operandWith (textWithin level) right = some b) :
    textWithin (level + 1) (.binary span "+" left right) = a.concat? b := by
  have hsum : unwrap (.binary span "+" left right) = .binary span "+" left right := rfl
  rw [textWithin, hsum]
  simp only [ha, hb]

/-- **Where numbers are written.** Every place writes a whole number as the number held to 64 bits. -/
theorem writtenAs_saturated (hx : x.isDouble = true) (hn : x.toInt? = some n) (hsmall : n.natAbs < Nat.pow 10 21) :
    WrittenAs x (Binary64.saturate64 n) := by
  have hscript : Numeral (Binary64.saturate64 n) x.scriptText := Binary64.numeral_scriptText hn hsmall
  have htext : Numeral (Binary64.saturate64 n) (String.ofList x.scriptText).toList := by
    rw [String.toList_ofList]
    exact hscript
  constructor
  · exact hscript
  · intro place
    exact ⟨_, rfl, htext⟩
  · intro level span part number s hpart hnumber
    exact ⟨_, htext, textWithin_sum hpart hnumber, textWithin_sum hnumber hpart⟩
  · intro f scale name hf
    refine ⟨?_, fun v token hv htoken => ?_⟩
    · rw [formatToken?_of_length hf, pixels?_of_whole hx hn, Binary64.saturate64_nonneg_iff, ← Int.not_lt]
      by_cases hneg : n < 0
      · simp [hneg]
      · simp [hneg]
    · rw [formatToken?_of_length hf, hv] at htoken
      cases htoken
      exact lengthClass_of_whole (fun row hrow => mem_scaleSizes hf hrow) name hx hn hsmall

/-- **Whole numbers.** For every whole double below 10^21 in magnitude: its text is the numeral of the number held to 64
bits and of no other number, in styles, keys, texts and classes of lengths alike; so it is written as itself if and only
if it is at least -2^63 and below 2^63. -/
theorem wholeNumbers_written (hx : x.isDouble = true) (hn : x.toInt? = some n) (hsmall : n.natAbs < Nat.pow 10 21) :
    (∀ k, Numeral k x.scriptText ↔ k = Binary64.saturate64 n) ∧
    (∀ k, WrittenAs x k ↔ k = Binary64.saturate64 n) ∧
    (WrittenAs x n ↔ -Int.pow 2 63 ≤ n ∧ n < Int.pow 2 63) := by
  have hwritten (k : Int) : WrittenAs x k ↔ k = Binary64.saturate64 n := by
    constructor
    · intro h
      exact (Binary64.numeral_scriptText_iff hn hsmall).1 h.style
    · rintro rfl
      exact writtenAs_saturated hx hn hsmall
  refine ⟨fun k => Binary64.numeral_scriptText_iff hn hsmall, hwritten, ?_⟩
  rw [hwritten, eq_comm, Binary64.saturate64_eq_iff]

/-- the greatest double below 2^63 -/
theorem wholeNumbers_written_greatest : WrittenAs (.finite false (Nat.pow 2 53 - 1) 10) 9223372036854774784 := by
  have hwhole : (Binary64.finite false (Nat.pow 2 53 - 1) 10).toInt? = some 9223372036854774784 := by decide +kernel
  exact (wholeNumbers_written (by decide +kernel) hwhole (by decide)).2.2.2 (by decide +kernel)

/-- **Numbers that are cut off.** 10^20 is a double and below 10^21, but its text is that of 2^63 - 1, in a class as in a
style, and the text of -10^20 is that of -2^63. -/
theorem large_numbers_cut :
    ((Binary64.ofNat (Nat.pow 10 20)).toInt? = some (Int.pow 10 20) ∧
      (Binary64.ofNat (Nat.pow 10 20)).scriptText = "9223372036854775807".toList ∧
      ¬Numeral (Int.pow 10 20) (Binary64.ofNat (Nat.pow 10 20)).scriptText) ∧
    (StyleValue.number (.ofNat (Nat.pow 10 20))).script = "9223372036854775807".toList ∧
    formatToken? .fontSize (.number (.ofNat (Nat.pow 10 20))) = some "text-[9223372036854775807px]".toList ∧
    (Binary64.ofInt (-Int.pow 10 20)).scriptText = "-9223372036854775808".toList := by
  have hwhole : (Binary64.ofNat (Nat.pow 10 20)).toInt? = some (Int.pow 10 20) := by decide +kernel
  refine ⟨⟨hwhole, by decide +kernel, ?_⟩, by decide +kernel, by decide +kernel, by decide +kernel⟩
  rw [Binary64.numeral_scriptText_iff hwhole (by decide)]
  decide

end TsxWorkbench.Edit
