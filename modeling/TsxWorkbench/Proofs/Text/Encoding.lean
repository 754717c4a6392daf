/-
UTF-8 bytes of a text.

- `bytes_lt`: the order of code points is the order of bytes.
- `toList_eq_of_isAscii`, `check_of_ascii`: the characters of an ASCII text are its bytes.
-/
import Mathlib.Tactic.SplitIfs

namespace TsxWorkbench.Text

open String

theorem bytes_eq (s : String) : s.toByteArray.data.toList = s.toList.flatMap utf8EncodeChar := by
  rw [← String.utf8Encode_toList]
  simp [List.utf8Encode]

/-! ## Order -/

theorem ofNat_cons_lt {m n : Nat} {as bs : List UInt8} (hm : m < 256) (hn : n < 256) :
    UInt8.ofNat m :: as < UInt8.ofNat n :: bs ↔ m < n ∨ m = n ∧ as < bs := by
  rw [List.cons_lt_cons_iff, UInt8.lt_iff_toNat_lt, ← UInt8.toNat_inj, UInt8.toNat_ofNat_of_lt' hm,
    UInt8.toNat_ofNat_of_lt' hn]

/-- of two characters the one with the lesser code has the lesser bytes, whatever follows -/
theorem encode_append_lt {c d : Char} (h : c < d) (as bs : List UInt8) :
    utf8EncodeChar c ++ as < utf8EncodeChar d ++ bs := by
  have hlt : c.val.toNat < d.val.toNat := h
  have hd : d.val.toNat < 1114112 := by
    rcases d.valid with h | h <;> omega
  unfold utf8EncodeChar
  generalize c.val.toNat = m at hlt ⊢
  generalize d.val.toNat = n at hlt hd ⊢
  -- the first place at which two numbers differ in base 64 tells which one is less
  have hplace : m / 262144 < n / 262144 ∨ m / 262144 = n / 262144 ∧ (m / 4096 < n / 4096 ∨ m / 4096 = n / 4096 ∧
      (m / 64 < n / 64 ∨ m / 64 = n / 64 ∧ m % 64 < n % 64)) := by omega
  have hm8 : m / 262144 % 8 = m / 262144 := by omega
  have hn8 : n / 262144 % 8 = n / 262144 := by omega
  dsimp only
  split_ifs <;> simp (disch := omega) only [List.cons_append, List.nil_append, ofNat_cons_lt, hm8, hn8] <;> omega

theorem encoded_lt {as bs : List Char} (h : as < bs) : as.flatMap utf8EncodeChar < bs.flatMap utf8EncodeChar := by
  induction as generalizing bs with
  | nil =>
    cases bs with
    | nil => exact absurd h (List.lt_irrefl [])
    | cons b bs =>
      obtain ⟨x, xs, hx⟩ := List.exists_cons_of_ne_nil (utf8EncodeChar_ne_nil (c := b))
      rw [List.flatMap_cons, hx]
      exact List.nil_lt_cons x _
  | cons a as ih =>
    cases bs with
    | nil => exact absurd h (List.not_lt_nil _)
    | cons b bs =>
      rw [List.flatMap_cons, List.flatMap_cons]
      rcases List.cons_lt_cons_iff.1 h with hab | ⟨rfl, hrest⟩
      · exact encode_append_lt hab _ _
      · exact List.append_left_lt (ih hrest)

/-- a text before another one in the order of code points is before it in the order of bytes -/
theorem bytes_lt {s t : String} (h : s < t) : s.toByteArray.data.toList < t.toByteArray.data.toList := by
  rw [bytes_eq, bytes_eq]
  exact encoded_lt (String.lt_iff.1 h)

/-! ## ASCII -/

def isAscii (s : String) : Bool := s.toByteArray.data.toList.all (·.toNat < 128)

/-- characters of an ASCII text, which are its bytes: found without decoding the text -/
def asciiChars (s : String) : List Char := s.toByteArray.data.toList.map fun b => Char.ofNat b.toNat

theorem encode_ascii {c : Char} (h : ∀ b ∈ utf8EncodeChar c, b.toNat < 128) :
    (utf8EncodeChar c).map (fun b => Char.ofNat b.toNat) = [c] := by
  -- the first byte of a longer character is no ASCII code
  unfold utf8EncodeChar at h ⊢
  dsimp only at h ⊢
  split_ifs at h ⊢ with hshort
  · have hbyte : (UInt8.ofNat c.val.toNat).toNat = c.toNat := UInt8.toNat_ofNat_of_lt' (show c.val.toNat < 256 by omega)
    rw [List.map_singleton, hbyte, Char.ofNat_toNat]
  all_goals
    have hlow := h _ List.mem_cons_self
    rw [UInt8.toNat_ofNat'] at hlow
    omega

theorem toList_eq_of_isAscii {s : String} (h : isAscii s = true) : s.toList = asciiChars s := by
  have hascii : ∀ b ∈ s.toList.flatMap utf8EncodeChar, b.toNat < 128 := fun b hb =>
    of_decide_eq_true (List.all_eq_true.1 h b (bytes_eq s ▸ hb))
  rw [asciiChars, bytes_eq, List.map_flatMap]
  generalize s.toList = cs at hascii ⊢
  induction cs with
  | nil => rfl
  | cons c cs ih =>
    rw [List.flatMap_cons, List.forall_mem_append] at hascii
    rw [List.flatMap_cons, encode_ascii hascii.1, ← ih hascii.2]
    rfl

/-- what is checked of an ASCII text may be checked of its bytes -/
theorem check_of_ascii (check : List Char → Bool) {s : String} (h : (isAscii s && check (asciiChars s)) = true) :
    check s.toList = true := by
  rw [Bool.and_eq_true] at h
  rw [toList_eq_of_isAscii h.1]
  exact h.2

end TsxWorkbench.Text
