/-
What the digest of a source tells. Multiplication by the factor of a lane and the rotation of a lane can be undone, and
so can the spelling of the digest; the rest is lost in the hash of the bytes.

- `ofSource_eq_iff`: two sources have one digest iff they have as many bytes and one hash of their bytes.
- `ofSource_replaced`: which replacements of a character the digest shows. A chunk of 16 bytes whose first half is the
  lane it is mixed into is hashed without its second half (`hashBytes_lost`), so a character there is `Lost`.
- `ofSource_replacement_lost`: two sources that differ in one character and have one digest.
-/
import Mathlib.Algebra.Group.Nat.Defs
import Mathlib.Data.List.Nodup
import TsxWorkbench.Digest
import TsxWorkbench.Proofs.Text.Bytes

namespace TsxWorkbench.Digest

open Text

/-! ## Bytes of a text -/

theorem toList_loop (bs : ByteArray) (i : Nat) (r : List UInt8) :
    ByteArray.toList.loop bs i r = r.reverse ++ bs.data.toList.drop i := by
  fun_induction ByteArray.toList.loop bs i r with
  | case1 i r h ih =>
    have hlt : i < bs.data.toList.length := by simpa using h
    have hsize : i < bs.data.size := by simpa using h
    have hget : bs.get! i = bs.data.toList[i] := by
      rw [Array.getElem_toList, ← getElem!_pos bs.data i hsize]
      rfl
    rw [ih, List.drop_eq_getElem_cons hlt, List.reverse_cons, List.append_assoc, hget]
    rfl
  | case2 i r h =>
    have hge : bs.data.toList.length ≤ i := by simpa using h
    rw [List.drop_eq_nil_of_le hge, List.append_nil]

theorem utf8_eq (cs : List Char) : utf8 cs = cs.flatMap String.utf8EncodeChar := by
  unfold utf8 ByteArray.toList
  rw [toList_loop]
  simp [String.toUTF8, List.utf8Encode]

@[simp] theorem utf8_append (as bs : List Char) : utf8 (as ++ bs) = utf8 as ++ utf8 bs := by
  simp [utf8_eq]

@[simp] theorem length_utf8 (cs : List Char) : (utf8 cs).length = byteLen cs := by
  rw [utf8_eq]
  induction cs with
  | nil => rfl
  | cons c cs ih => simp [ih]

/-! ## Lanes -/

/-- the number that undoes a multiplication by the factor of a lane -/
def laneInverse : UInt64 := 0x781494a55daaed0d

theorem laneFactor_mul_inverse : laneFactor * laneInverse = 1 := by decide

theorem feed_inj {s t i j : UInt64} (h : feed s i = feed t j) : s + i = t + j := by
  have hundone := congrArg (· * laneInverse) h
  simpa only [feed, UInt64.mul_assoc, laneFactor_mul_inverse, UInt64.mul_one] using hundone

theorem toNat_finish (x : UInt64) : (finish x).toNat = x.toNat % 2 ^ 38 * 2 ^ 26 + x.toNat / 2 ^ 38 := by
  have hlt := x.toNat_lt
  have hlow : x.toNat / 2 ^ 38 < 2 ^ 26 := by omega
  have hhigh : x.toNat <<< 26 % 2 ^ 64 = (x.toNat % 2 ^ 38) <<< 26 := by
    rw [Nat.shiftLeft_eq, Nat.shiftLeft_eq]
    omega
  rw [finish, UInt64.toNat_or, UInt64.toNat_shiftLeft, UInt64.toNat_shiftRight]
  change x.toNat <<< 26 % 2 ^ 64 ||| x.toNat >>> 38 = _
  rw [hhigh, Nat.shiftRight_eq_div_pow, ← Nat.shiftLeft_add_eq_or_of_lt hlow, Nat.shiftLeft_eq]

theorem finish_inj {x y : UInt64} (h : finish x = finish y) : x = y := by
  have hbits := congrArg UInt64.toNat h
  rw [toNat_finish, toNat_finish] at hbits
  apply UInt64.toNat_inj.1
  have hx := x.toNat_lt
  have hy := y.toNat_lt
  omega

/-- the first lane alone tells the hash -/
theorem hashBytes_of_primary {as bs : List UInt8} (h : primary as = primary bs) : hashBytes as = hashBytes bs := by
  simpa using feed_inj (finish_inj h)

/-- a hash and a length are read off the two lanes -/
theorem lanes_eq_iff {as bs : List UInt8} : (primary as = primary bs ∧ secondary as = secondary bs) ↔
    UInt64.ofNat as.length = UInt64.ofNat bs.length ∧ hashBytes as = hashBytes bs := by
  constructor
  · rintro ⟨hprimary, hsecondary⟩
    have hhash := hashBytes_of_primary hprimary
    refine ⟨?_, hhash⟩
    have houter := feed_inj (finish_inj hsecondary)
    rw [hprimary, UInt64.add_left_inj] at houter
    have hinner := feed_inj houter
    rw [hhash, UInt64.add_left_inj] at hinner
    simpa using feed_inj hinner
  · rintro ⟨hlength, hhash⟩
    simp [primary, secondary, hlength, hhash]

/-! ## Spelling -/

/-- numbers with the same last digits to the base 256 have the same remainder -/
theorem mod_eq_of_digits {m n k : Nat} (h : ∀ i < k, m / 2 ^ (8 * i) % 256 = n / 2 ^ (8 * i) % 256) :
    m % 2 ^ (8 * k) = n % 2 ^ (8 * k) := by
  induction k with
  | zero => simp [Nat.mod_one]
  | succ k ih =>
    have hlow := ih fun i hi => h i (Nat.lt_succ_of_lt hi)
    have hpow : 2 ^ (8 * (k + 1)) = 2 ^ (8 * k) * 256 := by rw [Nat.mul_succ, Nat.pow_add]
    rw [hpow, Nat.mod_mul, Nat.mod_mul, hlow, h k (Nat.lt_succ_self k)]

theorem toBytes_inj {x y : UInt64} (h : toBytes x = toBytes y) : x = y := by
  have hdigit : ∀ i < 8, x.toNat / 2 ^ (8 * i) % 256 = y.toNat / 2 ^ (8 * i) % 256 := by
    intro i hi
    have hbyte := congrArg UInt8.toNat (List.map_inj_left.1 h i (List.mem_range.2 hi))
    have hshift : 8 * i % 64 = 8 * i := by omega
    simpa [Nat.shiftRight_eq_div_pow, hshift] using hbyte
  have hmod := mod_eq_of_digits hdigit
  rw [Nat.mod_eq_of_lt x.toNat_lt, Nat.mod_eq_of_lt y.toNat_lt] at hmod
  exact UInt64.toNat_inj.1 hmod

theorem length_toBytes (x : UInt64) : (toBytes x).length = 8 := rfl

theorem letter_inj {m n : Nat} (h : letter m = letter n) : m % 64 = n % 64 := by
  have hnodup : alphabet.Nodup := by decide
  have hm : m % 64 < alphabet.length := Nat.mod_lt m (by decide)
  have hn : n % 64 < alphabet.length := Nat.mod_lt n (by decide)
  have hget : alphabet[m % 64] = alphabet[n % 64] := by simpa [letter, hm, hn] using h
  exact (hnodup.getElem_inj_iff).1 hget

theorem base64_inj {as bs : List UInt8} (hlength : as.length = bs.length) (h : base64 as = base64 bs) : as = bs := by
  induction as using base64.induct generalizing bs with
  | case1 => exact (List.eq_nil_of_length_eq_zero hlength.symm).symm
  | case2 a =>
    obtain ⟨a', rfl⟩ := List.length_eq_one_iff.1 hlength.symm
    simp only [base64, List.cons.injEq, and_true] at h
    have hhigh := letter_inj h.1
    have hlow := letter_inj h.2
    have ha := a.toNat_lt
    have ha' := a'.toNat_lt
    rw [UInt8.toNat_inj.1 (show a.toNat = a'.toNat by omega)]
  | case3 a b =>
    obtain ⟨a', b', rfl⟩ := List.length_eq_two.1 hlength.symm
    simp only [base64, List.cons.injEq, and_true] at h
    have hhigh := letter_inj h.1
    have hmid := letter_inj h.2.1
    have hlow := letter_inj h.2.2
    have ha := a.toNat_lt
    have ha' := a'.toNat_lt
    have hb := b.toNat_lt
    have hb' := b'.toNat_lt
    rw [UInt8.toNat_inj.1 (show a.toNat = a'.toNat by omega), UInt8.toNat_inj.1 (show b.toNat = b'.toNat by omega)]
  | case4 a b c rest ih =>
    obtain ⟨a', b', c', rest', rfl⟩ : ∃ a' b' c' rest', bs = a' :: b' :: c' :: rest' := by
      match bs, hlength with
      | a' :: b' :: c' :: rest', _ => exact ⟨a', b', c', rest', rfl⟩
    simp only [base64, List.cons.injEq] at h
    have h0 := letter_inj h.1
    have h1 := letter_inj h.2.1
    have h2 := letter_inj h.2.2.1
    have h3 := letter_inj h.2.2.2.1
    have ha := a.toNat_lt
    have ha' := a'.toNat_lt
    have hb := b.toNat_lt
    have hb' := b'.toNat_lt
    have hc := c.toNat_lt
    have hc' := c'.toNat_lt
    have hrest := ih (by simpa using hlength) h.2.2.2.2
    rw [UInt8.toNat_inj.1 (show a.toNat = a'.toNat by omega), UInt8.toNat_inj.1 (show b.toNat = b'.toNat by omega),
      UInt8.toNat_inj.1 (show c.toNat = c'.toNat by omega), hrest]

/-- one digest is one length, up to 64 bits, and one hash of the bytes -/
theorem ofSource_eq_iff_word (s t : List Char) : ofSource s = ofSource t ↔
    UInt64.ofNat (byteLen s) = UInt64.ofNat (byteLen t) ∧ hashBytes (utf8 s) = hashBytes (utf8 t) := by
  rw [← length_utf8 s, ← length_utf8 t, ← lanes_eq_iff]
  constructor
  · intro h
    have hbytes := base64_inj (by simp [length_toBytes]) h
    obtain ⟨hprimary, hsecondary⟩ := List.append_inj hbytes (by simp [length_toBytes])
    exact ⟨toBytes_inj hprimary, toBytes_inj hsecondary⟩
  · rintro ⟨hprimary, hsecondary⟩
    simp [ofSource, hprimary, hsecondary]

/-- **What the digest tells.** Two sources have one digest iff they have as many bytes and one hash of their bytes. So
sources of different lengths have different digests, and between sources of one length the second lane tells no more
than the first. -/
theorem ofSource_eq_iff {s t : List Char} (hs : byteLen s < 2 ^ 64) (ht : byteLen t < 2 ^ 64) :
    (ofSource s = ofSource t ↔ byteLen s = byteLen t ∧ hashBytes (utf8 s) = hashBytes (utf8 t)) ∧
      (byteLen s ≠ byteLen t → ofSource s ≠ ofSource t) ∧
      (byteLen s = byteLen t → primary (utf8 s) = primary (utf8 t) → secondary (utf8 s) = secondary (utf8 t)) := by
  have hiff : ofSource s = ofSource t ↔ byteLen s = byteLen t ∧ hashBytes (utf8 s) = hashBytes (utf8 t) := by
    rw [ofSource_eq_iff_word, ← UInt64.toNat_inj, UInt64.toNat_ofNat_of_lt' hs, UInt64.toNat_ofNat_of_lt' ht]
  refine ⟨hiff, fun hlength h => hlength (hiff.1 h).1, fun hlength hprimary => ?_⟩
  simp [secondary, hlength, hashBytes_of_primary hprimary, hprimary]

/-- the empty source and a space -/
theorem ofSource_eq_iff_space : byteLen [] < 2 ^ 64 ∧ byteLen [' '] < 2 ^ 64 ∧ ofSource [] ≠ ofSource [' '] :=
  ⟨by decide, by decide, (ofSource_eq_iff (s := []) (t := [' ']) (by decide) (by decide)).2.1 (by decide)⟩

/-! ## Chunks -/

/-- the lanes after one more chunk of 16 bytes -/
def absorb (s : UInt64 × UInt64) (chunk : List UInt8) : UInt64 × UInt64 :=
  (s.2, mix (s.1 ^^^ wordAt chunk 0 8) (fold0 ^^^ wordAt chunk 8 8))

theorem wordAt_append_left {as : List UInt8} {i n : Nat} (h : i + n ≤ as.length) (bs : List UInt8) :
    wordAt (as ++ bs) i n = wordAt as i n := by
  rw [wordAt, wordAt, List.drop_append_of_le_length (by omega), List.take_append_of_le_length (by simp; omega)]

theorem wordAt_append_right (as bs : List UInt8) (i n : Nat) : wordAt (as ++ bs) (as.length + i) n = wordAt bs i n := by
  rw [wordAt, wordAt, List.drop_append, List.drop_eq_nil_of_le (by omega), List.nil_append, Nat.add_sub_cancel_left]

theorem chunks_append {chunk rest : List UInt8} (hchunk : chunk.length = 16) (hrest : rest ≠ []) (fuel : Nat)
    (s : UInt64 × UInt64) : chunks (fuel + 1) (chunk ++ rest) s = chunks fuel rest (absorb s chunk) := by
  have hdrop : (chunk ++ rest).drop 16 = rest := by rw [← hchunk, List.drop_left]
  have hmore : rest.isEmpty = false := by simpa using hrest
  rw [chunks, hdrop, hmore, absorb, wordAt_append_left (by omega), wordAt_append_left (by omega)]
  rfl

theorem chunks_flatten {front : List (List UInt8)} (hfront : ∀ chunk ∈ front, chunk.length = 16) {rest : List UInt8}
    (hrest : rest ≠ []) (fuel : Nat) (s : UInt64 × UInt64) :
    chunks (front.length + fuel) (front.flatten ++ rest) s = chunks fuel rest (front.foldl absorb s) := by
  induction front generalizing s with
  | nil => simp
  | cons chunk front ih =>
    rw [List.forall_mem_cons] at hfront
    have hmore : front.flatten ++ rest ≠ [] := by simp [hrest]
    rw [List.flatten_cons, List.append_assoc, List.length_cons, Nat.add_right_comm, chunks_append hfront.1 hmore,
      ih hfront.2, List.foldl_cons]

theorem length_flatten_chunks {front : List (List UInt8)} (hfront : ∀ chunk ∈ front, chunk.length = 16) :
    front.flatten.length = 16 * front.length := by
  induction front with
  | nil => rfl
  | cons chunk front ih =>
    rw [List.forall_mem_cons] at hfront
    rw [List.flatten_cons, List.length_append, List.length_cons, ih hfront.2, hfront.1]
    omega

/-- the hash of bytes behind chunks goes on from the lanes after the chunks -/
theorem hashBytes_append {front : List (List UInt8)} (hfront : ∀ chunk ∈ front, chunk.length = 16) (hne : front ≠ [])
    {back : List UInt8} (hback : 16 ≤ back.length) : hashBytes (front.flatten ++ back) =
      let n := 16 * front.length + back.length
      let t := chunks (n - 1 - front.length) back (front.foldl absorb (seed0, seed1))
      mix (t.1 ^^^ wordAt back (back.length - 16) 8) (t.2 ^^^ wordAt back (back.length - 8) 8) ^^^ UInt64.ofNat n := by
  have hcount : 0 < front.length := List.length_pos_iff.2 hne
  have hlength : (front.flatten ++ back).length = 16 * front.length + back.length := by
    rw [List.length_append, length_flatten_chunks hfront]
  have hback0 : back ≠ [] := by
    rintro rfl
    simp at hback
  have hword : ∀ i, i ≤ back.length →
      wordAt (front.flatten ++ back) (16 * front.length + back.length - i) 8 = wordAt back (back.length - i) 8 := by
    intro i hi
    have hplace : 16 * front.length + back.length - i = front.flatten.length + (back.length - i) := by
      rw [length_flatten_chunks hfront]
      omega
    rw [hplace, wordAt_append_right]
  have hfuel : 16 * front.length + back.length - 1 =
      front.length + (16 * front.length + back.length - 1 - front.length) := by omega
  have hchunks := chunks_flatten hfront hback0 (16 * front.length + back.length - 1 - front.length) (seed0, seed1)
  rw [← hfuel] at hchunks
  unfold hashBytes
  dsimp only
  rw [hlength, if_neg (by omega), hchunks, hword 16 hback, hword 8 (by omega)]

@[simp] theorem mix_zero (y : UInt64) : mix 0 y = 0 := by simp [mix]

section

variable {front : List (List UInt8)} {key value value' back : List UInt8}

/-- the second half of a chunk does not count if the first half is the lane -/
theorem absorb_lost {s : UInt64 × UInt64} (hkey : key.length = 8) (hlane : wordAt key 0 8 = s.1)
    (value : List UInt8) : absorb s (key ++ value) = (s.2, 0) := by
  rw [absorb, wordAt_append_left (by omega), hlane, UInt64.xor_self, mix_zero]

/-- **A lost half.** If the first half of a chunk is the lane it is mixed into, and 16 bytes or more follow the chunk,
then the hash does not depend on the second half. -/
theorem hashBytes_lost (hfront : ∀ chunk ∈ front, chunk.length = 16) (hkey : key.length = 8)
    (hlane : wordAt key 0 8 = (front.foldl absorb (seed0, seed1)).1) (hvalue : value.length = 8)
    (hvalue' : value'.length = 8) (hback : 16 ≤ back.length) :
    hashBytes (front.flatten ++ (key ++ value) ++ back) = hashBytes (front.flatten ++ (key ++ value') ++ back) := by
  have hgoes : ∀ v : List UInt8, v.length = 8 → ∀ chunk ∈ front ++ [key ++ v], chunk.length = 16 := by
    intro v hv
    rw [List.forall_mem_append, List.forall_mem_singleton]
    exact ⟨hfront, by simp [hkey, hv]⟩
  have hflat : ∀ v : List UInt8, front.flatten ++ (key ++ v) = (front ++ [key ++ v]).flatten := by simp
  rw [hflat, hflat, hashBytes_append (hgoes value hvalue) (by simp) hback,
    hashBytes_append (hgoes value' hvalue') (by simp) hback]
  simp only [List.length_append, List.length_singleton, List.foldl_append, List.foldl_cons, List.foldl_nil,
    absorb_lost hkey hlane]

end

/-! ## Replacements -/

/-- a character in the second half of a chunk whose first half is the lane it is mixed into, with 16 bytes or more after
the chunk -/
def Lost (before : List Char) (c : Char) (after : List Char) : Prop :=
  ∃ (front : List (List UInt8)) (key left right back : List UInt8),
    utf8 before = front.flatten ++ (key ++ left) ∧ utf8 after = right ++ back ∧
      (∀ chunk ∈ front, chunk.length = 16) ∧ key.length = 8 ∧ left.length + c.utf8Size + right.length = 8 ∧
        16 ≤ back.length ∧ wordAt key 0 8 = (front.foldl absorb (seed0, seed1)).1

section

variable {before after : List Char} {c d : Char}

/-- whatever stands at the place of a lost character, the hash is the same -/
theorem Lost.hashBytes_eq (h : Lost before c after) (hsize : c.utf8Size = d.utf8Size) :
    hashBytes (utf8 (before ++ d :: after)) = hashBytes (utf8 (before ++ c :: after)) := by
  obtain ⟨front, key, left, right, back, hbefore, hafter, hfront, hkey, hvalue, hback, hlane⟩ := h
  have hbytes : ∀ e : Char, utf8 (before ++ e :: after) =
      front.flatten ++ (key ++ (left ++ utf8 [e] ++ right)) ++ back := by
    intro e
    rw [← List.singleton_append, utf8_append, utf8_append, hbefore, hafter]
    simp only [List.append_assoc]
  have hlength : ∀ e : Char, e.utf8Size = c.utf8Size → (left ++ utf8 [e] ++ right).length = 8 := by
    intro e he
    rw [List.length_append, List.length_append, length_utf8, byteLen_cons, byteLen_nil, he]
    exact hvalue
  rw [hbytes, hbytes]
  exact hashBytes_lost hfront hkey hlane (hlength d hsize.symm) (hlength c rfl) hback

/-- two sources that differ in one character have as many bytes iff the characters do -/
theorem byteLen_replaced :
    UInt64.ofNat (byteLen (before ++ d :: after)) = UInt64.ofNat (byteLen (before ++ c :: after)) ↔
      c.utf8Size = d.utf8Size := by
  have hc := c.utf8Size_le_four
  have hd := d.utf8Size_le_four
  rw [← UInt64.toNat_inj, UInt64.toNat_ofNat', UInt64.toNat_ofNat']
  simp only [byteLen_append, byteLen_cons]
  omega

/-- **Which replacements show.** The digest shows that a character was replaced by another one iff the two take
different numbers of bytes or the hash of the bytes shows it. It never shows the replacement of a lost character. -/
theorem ofSource_replaced (before after : List Char) (c d : Char) :
    (ofSource (before ++ d :: after) ≠ ofSource (before ++ c :: after) ↔
      c.utf8Size ≠ d.utf8Size ∨ hashBytes (utf8 (before ++ d :: after)) ≠ hashBytes (utf8 (before ++ c :: after))) ∧
    (Lost before c after → c.utf8Size = d.utf8Size →
      ofSource (before ++ d :: after) = ofSource (before ++ c :: after)) := by
  constructor
  · rw [ne_eq, ofSource_eq_iff_word, byteLen_replaced, not_and_or]
  · intro hlost hsize
    rw [ofSource_eq_iff_word, byteLen_replaced]
    exact ⟨hsize, hlost.hashBytes_eq hsize⟩

end

/-- two chunks of a source, after which the first lane is the eight characters `laneText` -/
def sourceStart : List Char := "const id_qani = \"workbench token".toList

def laneText : List Char := "CdCJSO1S".toList

def sourceEnd : List Char := "\"; // kept as is".toList

/-- the two chunks as bytes -/
def startChunks : List (List UInt8) :=
  ["const id_qani = ".toList.flatMap String.utf8EncodeChar, "\"workbench token".toList.flatMap String.utf8EncodeChar]

theorem ofSource_replaced_draft :
    Lost (sourceStart ++ laneText ++ "-draft-".toList) '1' sourceEnd ∧
      ofSource (sourceStart ++ laneText ++ "-draft-".toList ++ '2' :: sourceEnd) =
        ofSource (sourceStart ++ laneText ++ "-draft-".toList ++ '1' :: sourceEnd) := by
  have hlost : Lost (sourceStart ++ laneText ++ "-draft-".toList) '1' sourceEnd := by
    refine ⟨startChunks, utf8 laneText, utf8 "-draft-".toList, [], utf8 sourceEnd, ?_, rfl, ?_⟩
    · rw [utf8_append, utf8_append, List.append_assoc, show utf8 sourceStart = startChunks.flatten from ?_]
      rw [utf8_eq]
      decide +kernel
    · rw [utf8_eq, utf8_eq, utf8_eq]
      exact ⟨by decide +kernel, by decide +kernel, by decide +kernel, by decide +kernel, by decide +kernel⟩
  exact ⟨hlost, (ofSource_replaced _ sourceEnd '1' '2').2 hlost rfl⟩

/-- **A replacement that is lost.** Two sources of 64 characters that differ in one digit have one digest. -/
theorem ofSource_replacement_lost :
    ¬∀ (before after : List Char) (c d : Char), c ≠ d →
      ofSource (before ++ d :: after) ≠ ofSource (before ++ c :: after) := by
  intro h
  apply h (sourceStart ++ laneText ++ "-draft-".toList) sourceEnd '1' '2' (by decide)
  rw [ofSource_eq_iff_word, utf8_eq, utf8_eq]
  exact ⟨by decide +kernel, by decide +kernel⟩

end TsxWorkbench.Digest
