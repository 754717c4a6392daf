/-
Utilities on a machine. Every cut falls between two characters and every place is in its list, so the readers of the
machine are those of the library. The one exception is the opposite of the least number of 64 bits, which no signed
word holds: `resolve_ok` and `resolve_overflow`.
-/
import Mathlib.Algebra.Group.Nat.Defs
import TsxWorkbench.Proofs.Number.ScriptText
import TsxWorkbench.Proofs.Text.Bytes
import TsxWorkbench.Proofs.Utility.Naming
import TsxWorkbench.Utility.Machine

namespace TsxWorkbench.Utility.Machine

open Number Text

/-! ## Operations -/

theorem word_ok {n : Nat} (h : n < 2 ^ 64) : word n = .ok n := if_pos h

theorem item_ok {α : Type} {items : List α} {i : Nat} {a : α} (h : items[i]? = some a) : item items i = .ok a := by
  rw [item, h]

theorem isBoundary_append (pre post : List Char) : isBoundary (pre ++ post) (byteLen pre) = true := by
  induction pre with
  | nil => simp [isBoundary]
  | cons c pre ih =>
    obtain ⟨n, hn⟩ : ∃ n, byteLen (c :: pre) = n + 1 :=
      Nat.exists_eq_succ_of_ne_zero (by have := c.utf8Size_pos; rw [byteLen_cons]; omega)
    have hrest : n + 1 - c.utf8Size = byteLen pre := by rw [← hn, byteLen_cons, Nat.add_sub_cancel_left]
    have hfirst : c.utf8Size ≤ n + 1 := by rw [← hn, byteLen_cons]; exact Nat.le_add_right _ _
    rw [hn, List.cons_append, isBoundary, hrest, ih, decide_eq_true hfirst]
    rfl

theorem cut_append (pre mid post : List Char) :
    cut (pre ++ (mid ++ post)) (byteLen pre) (byteLen (pre ++ mid)) = .ok mid := by
  have hlo := isBoundary_append pre (mid ++ post)
  have hhi := isBoundary_append (pre ++ mid) post
  rw [List.append_assoc] at hhi
  have hle : byteLen pre ≤ byteLen (pre ++ mid) := by rw [byteLen_append]; exact Nat.le_add_right _ _
  rw [cut, if_pos ⟨hle, hlo, hhi⟩, sliceBytes_append]

example : cut "é-z".toList 0 2 = .ok "é".toList ∧ cut "é-z".toList 1 3 = .error .cut := by decide

theorem cutFrom_append (pre post : List Char) : cutFrom (pre ++ post) (byteLen pre) = .ok post := by
  have h := cut_append pre post []
  rwa [List.append_nil] at h

/-- a text of characters of one byte each has as many bytes as characters -/
theorem byteLen_of_single {cs : List Char} (h : ∀ c ∈ cs, c.utf8Size = 1) : byteLen cs = cs.length := by
  induction cs with
  | nil => rfl
  | cons c cs ih =>
    rw [List.forall_mem_cons] at h
    rw [byteLen_cons, ih h.2, h.1, List.length_cons, Nat.add_comm]

/-- in such a text offsets are places -/
theorem cut_of_single {cs : List Char} (h : ∀ c ∈ cs, c.utf8Size = 1) {i j : Nat} (hij : i ≤ j) (hj : j ≤ cs.length) :
    cut cs i j = .ok ((cs.drop i).take (j - i)) := by
  have hbytes : ∀ n ≤ cs.length, byteLen (cs.take n) = n := by
    intro n hn
    rw [byteLen_of_single fun c hc => h c (List.mem_of_mem_take hc), List.length_take_of_le hn]
  have hmid : cs.take i ++ (cs.drop i).take (j - i) = cs.take j := by
    rw [← List.take_add, Nat.add_sub_cancel' hij]
  have hwhole : cs.take i ++ ((cs.drop i).take (j - i) ++ cs.drop j) = cs := by
    rw [← List.append_assoc, hmid, List.take_append_drop]
  have hcut := cut_append (cs.take i) ((cs.drop i).take (j - i)) (cs.drop j)
  rwa [hwhole, hmid, hbytes i (hij.trans hj), hbytes j hj] at hcut

/-! ## Colours -/

theorem lookup_ok (name : List Char) : lookup name = .ok (lookup? name) := by
  have hrows : ∀ row ∈ palette, row.2.length = 11 := by decide +kernel
  unfold lookup lookup?
  split
  · rfl
  split
  · rfl
  cases splitLast? '-' name with
  | none => rfl
  | some parts =>
    obtain ⟨family, shade⟩ := parts
    dsimp only
    cases hshade : shades.idxOf? (String.ofList shade) with
    | none => rfl
    | some i =>
      cases hfamily : palette.lookup (String.ofList family) with
      | none => rfl
      | some colours =>
        have hi : i < 11 := (List.findIdx?_eq_some_iff_getElem.1 hshade).1
        obtain ⟨before, after, hpalette, -⟩ := List.lookup_eq_some_iff.1 hfamily
        have hrow : (String.ofList family, colours) ∈ palette := by simp [hpalette]
        have hplace : i < colours.length := (hrows _ hrow).symm ▸ hi
        have hcolour : colours[i]? = some colours[i] := List.getElem?_eq_getElem hplace
        dsimp only
        rw [item_ok hcolour, hcolour]
        rfl

theorem utf8Size_of_isHexDigit {c : Char} (h : isHexDigit c = true) : c.utf8Size = 1 := by
  have hcode := code_of_digitValue? h (by decide)
  rw [Char.utf8Size_eq_one_iff, UInt32.le_iff_toNat_le]
  change c.toNat ≤ 127
  omega

theorem channel_ok {digits : List Char} (h : ∀ c ∈ digits, c.utf8Size = 1) (hlength : digits.length = 6) {i : Nat}
    (hi : i + 2 ≤ 6) : channel digits i = .ok (channelAt? digits i) := by
  rw [channel, word_ok (by omega)]
  change (do return natural? 16 (← cut digits i (i + 2))) = _
  rw [cut_of_single h (Nat.le_add_right i 2) (hlength ▸ hi), Nat.add_sub_cancel_left]
  rfl

/-- the channels of a hexadecimal colour are cut from its six digits, or from its three digits doubled -/
theorem channels_hash (digits : List Char) : channels ('#' :: digits) = .ok (channels? ('#' :: digits)) := by
  simp only [channels, channels?]
  by_cases hdigits : (!digits.all isHexDigit) = true
  · rw [if_pos hdigits, if_pos hdigits]
  rw [if_neg hdigits, if_neg hdigits]
  have hhex : ∀ c ∈ digits, c.utf8Size = 1 := by
    intro c hc
    have hall : digits.all isHexDigit = true := by simpa using hdigits
    exact utf8Size_of_isHexDigit (List.all_eq_true.1 hall c hc)
  rw [byteLen_of_single hhex]
  generalize hsix : (if digits.length = 3 then digits.flatMap fun c => [c, c] else digits) = six
  have hsize : ∀ c ∈ six, c.utf8Size = 1 := by
    intro c hc
    rw [← hsix] at hc
    split at hc
    · obtain ⟨d, hd, hcd⟩ := List.mem_flatMap.1 hc
      have hsame : c = d := by simpa using hcd
      exact hsame ▸ hhex d hd
    · exact hhex c hc
  have hlength : (digits.length = 3 ∨ digits.length = 6) ↔ six.length = 6 := by
    rw [← hsix]
    split
    · rename_i hthree
      simp [List.length_flatMap, hthree]
    · rename_i hother
      simp [hother]
  by_cases hsixth : six.length = 6
  · rw [if_pos (hlength.2 hsixth), if_pos hsixth, channel_ok hsize hsixth (by decide),
      channel_ok hsize hsixth (by decide), channel_ok hsize hsixth (by decide)]
    cases channelAt? six 0 <;> cases channelAt? six 2 <;> cases channelAt? six 4 <;> rfl
  · rw [if_neg (mt hlength.1 hsixth), if_neg hsixth]

theorem channels_ok (hex : List Char) : channels hex = .ok (channels? hex) := by
  cases hex with
  | nil => rfl
  | cons c digits =>
    by_cases hc : c = '#'
    · rw [hc, channels_hash]
    · simp [channels, channels?, hc]

theorem withAlpha_ok (resolved : List Char) (alpha : Binary64) :
    withAlpha resolved alpha = .ok (Utility.withAlpha resolved alpha) := by
  unfold withAlpha Utility.withAlpha
  rw [channels_ok]
  cases channels? resolved <;> rfl

theorem baseColour_ok (base : List Char) : baseColour base = .ok (baseColour? base) := by
  unfold baseColour baseColour?
  cases named? colourNames base with
  | some v => rfl
  | none =>
    cases arbitrary? base with
    | some inner => rfl
    | none =>
      dsimp only
      rw [lookup_ok]
      rfl

theorem colour_ok (value : List Char) : colour value = .ok (colour? value) := by
  unfold colour colour?
  dsimp only
  rw [baseColour_ok]
  cases baseColour? (splitAlpha value).1 with
  | none => rfl
  | some resolved =>
    cases (splitAlpha value).2 with
    | none => rfl
    | some alpha =>
      change (do return some (← withAlpha resolved alpha)) = _
      rw [withAlpha_ok]
      rfl

theorem one_colour (property : String) (value : List Char) :
    (do return one property (← colour value)) = Except.ok (ε := Fault) (one property (colour? value)) := by
  rw [colour_ok]
  rfl

/-! ## Numbers -/

/-- the least number of 64 bits -/
def IsLeast64 (value : List Char) : Prop := signed64? value = some (-Int.pow 2 63)

instance : DecidablePred IsLeast64 := fun value => inferInstanceAs (Decidable (signed64? value = some _))

theorem unsigned?_le {bound : Nat} {value : List Char} {n : Nat} (h : unsigned? bound value = some n) : n ≤ bound := by
  unfold unsigned? at h
  dsimp only at h
  split at h
  · split at h
    · rename_i hle
      cases h
      exact hle
    · cases h
  · cases h

/-- a signed number has 64 bits, and only one with a minus sign is negative -/
theorem signed64?_cases {value : List Char} {n : Int} (h : signed64? value = some n) :
    (-Int.pow 2 63 ≤ n ∧ n < Int.pow 2 63) ∧ ((∃ rest, value = '-' :: rest) ∨ 0 ≤ n) := by
  have hpow : Int.pow 2 63 = (Nat.pow 2 63 : Nat) := rfl
  have hpos : 0 < Nat.pow 2 63 := by decide
  unfold signed64? at h
  split at h
  · rename_i rest
    split at h
    · split at h
      · rename_i hle
        cases h
        exact ⟨by omega, .inl ⟨rest, rfl⟩⟩
      · cases h
    · cases h
  · obtain ⟨m, hm, rfl⟩ := Option.map_eq_some_iff.1 h
    have hle := unsigned?_le hm
    rw [Int.ofNat_eq_natCast]
    exact ⟨by omega, .inr (by omega)⟩

theorem IsLeast64.exists_minus {value : List Char} (h : IsLeast64 value) : ∃ rest, value = '-' :: rest := by
  rcases (signed64?_cases h).2 with hminus | hpos
  · exact hminus
  · exact absurd hpos (by decide)

theorem integer_ok {value : List Char} {negative : Bool} (h : negative = true → ¬IsLeast64 value) :
    integer value negative = .ok (integer? value negative) := by
  unfold integer integer?
  cases arbitrary? value with
  | some inner => rfl
  | none =>
    dsimp only
    cases hvalue : signed64? value with
    | none => rfl
    | some n =>
      cases negative with
      | false => rfl
      | true =>
        have hleast : n ≠ -Int.pow 2 63 := by
          rintro rfl
          exact h rfl hvalue
        obtain ⟨hlo, hhi⟩ := (signed64?_cases hvalue).1
        have hword : signedWord (-n) = .ok (-n) := if_pos ⟨by omega, by omega⟩
        change (do return some (toString (← signedWord (-n))).toList) = _
        rw [hword]
        rfl

/-- no signed word holds the opposite of the least number -/
theorem integer_overflow {value : List Char} (h : IsLeast64 value) : integer value true = .error .overflow := by
  obtain ⟨rest, rfl⟩ := h.exists_minus
  have harbitrary : arbitrary? ('-' :: rest) = none := by simp [arbitrary?]
  unfold integer
  rw [harbitrary, h]
  rfl

theorem order_ok {value : List Char} {negative : Bool} (h : negative = true → ¬IsLeast64 value) :
    order value negative = .ok (order? value negative) := by
  unfold order order?
  cases named? [("first", "-9999"), ("last", "9999"), ("none", "0")] value with
  | some v => rfl
  | none => exact integer_ok h

theorem order_overflow {value : List Char} (h : IsLeast64 value) : order value true = .error .overflow := by
  unfold order
  split
  · rename_i v hnamed
    obtain ⟨text, htext, -⟩ := Option.map_eq_some_iff.1 hnamed
    obtain ⟨rest, rfl⟩ := h.exists_minus
    have hname := mem_map_fst_of_lookup htext
    have hfirst : ∀ name ∈ [("first", "-9999"), ("last", "9999"), ("none", "0")].map fun p => p.1.toList,
        name.head? ≠ some '-' := by decide
    exact absurd rfl (hfirst _ hname)
  · exact integer_overflow h

/-! ## Fixed names -/

section

variable {utility : List Char}

/-- a search for what the first fitting item gives finds the item first -/
theorem findSome?_eq_map_find? {α β : Type} {f : α → Option β} {p : α → Bool} {g : α → β} {l : List α}
    (h : ∀ a ∈ l, f a = if p a then some (g a) else none) : l.findSome? f = (l.find? p).map g := by
  induction l with
  | nil => rfl
  | cons a l ih =>
    rw [List.forall_mem_cons] at h
    rw [List.findSome?_cons, List.find?_cons, h.1, ih h.2]
    cases p a <;> rfl

theorem startsWithWord_iff {row : String × String × List String} :
    startsWithWord utility row = true ↔ ∃ v ∈ row.2.2, utility = row.1.toList ++ v.toList := by
  rw [startsWithWord, List.contains_iff_mem, List.mem_map]
  refine exists_congr fun v => and_congr_right fun _ => ?_
  rw [← String.toList_inj, String.toList_append, String.toList_ofList]
  exact eq_comm

theorem started?_eq : started? (String.ofList utility) utility =
    (startedNames.find? (startsWithWord utility)).map fun row => [⟨row.2.1, utility.drop row.1.toList.length⟩] := by
  apply findSome?_eq_map_find?
  rintro ⟨start, property, values⟩ -
  by_cases hrow : startsWithWord utility (start, property, values) = true
  · obtain ⟨v, hv, hutility⟩ := startsWithWord_iff.1 hrow
    have hrest : stripStart? start.toList utility = some v.toList := stripStart?_eq_some_iff.2 hutility
    have hname : start ++ String.ofList v.toList = String.ofList utility := by
      rw [← String.toList_inj, String.toList_append, String.toList_ofList, String.toList_ofList, hutility]
    have hlisted : values.contains (String.ofList v.toList) = true := by
      rw [String.ofList_toList]
      exact List.contains_iff_mem.2 hv
    dsimp only
    rw [if_pos hrow, hrest]
    dsimp only
    rw [if_pos ⟨hlisted, hname⟩, hutility, List.drop_left]
  · dsimp only
    rw [if_neg hrow]
    cases hrest : stripStart? start.toList utility with
    | none => rfl
    | some v =>
      apply if_neg
      rintro ⟨hlisted, -⟩
      apply hrow
      rw [startsWithWord_iff]
      refine ⟨String.ofList v, List.contains_iff_mem.1 hlisted, ?_⟩
      rw [String.toList_ofList]
      exact stripStart?_eq_some_iff.1 hrest

/-- names of the members of families -/
def familyNames : List (List Char) :=
  families.flatMap fun (start, _, values) => values.map fun v => start.toList ++ '-' :: v.1.toList

theorem family_listed : ∀ name ∈ familyNames, (family name).toOption = some (family? name) := by
  decide +kernel

/-- a family has no declaration for a word that makes none of the names -/
theorem familyWord_eq_none (h : utility ∉ familyNames) {start : String} {word : List Char}
    (hutility : utility = start.toList ++ '-' :: word) : familyWord start word = none := by
  cases hword : familyWord start word with
  | none => rfl
  | some ds =>
    exfalso
    apply h
    unfold familyWord at hword
    split at hword
    · rename_i property values hrow
      obtain ⟨v, hv, -⟩ := Option.map_eq_some_iff.1 hword
      obtain ⟨before, after, hfamilies, -⟩ := List.lookup_eq_some_iff.1 hrow
      obtain ⟨row, hmem, hfirst⟩ := List.mem_map.1 (mem_map_fst_of_lookup hv)
      refine List.mem_flatMap.2 ⟨(start, property, values), by simp [hfamilies], List.mem_map.2 ⟨row, hmem, ?_⟩⟩
      rw [hutility, ← hfirst]
    · cases hword

theorem family_unlisted (h : utility ∉ familyNames) : family utility = .ok none := by
  unfold family
  split
  · rfl
  rename_i front last hsplit
  have hutility := eq_of_splitLast? hsplit
  split
  · rename_i start fronts hrow
    -- the cut falls just behind the hyphen after the start of the family
    have hstarts : ∀ row ∈ hyphenated, ∀ f ∈ row.2, (row.1 ++ "-").toList <+: f.toList ++ ['-'] := by decide +kernel
    have hfound : fronts.contains (String.ofList front) = true := by simpa using List.find?_some hrow
    have hfront := List.contains_iff_mem.1 hfound
    obtain ⟨more, hmore⟩ := hstarts _ (List.mem_of_find?_eq_some hrow) _ hfront
    rw [String.toList_ofList] at hmore
    have hcut : utility = (start ++ "-").toList ++ (more ++ last) := by
      rw [hutility, ← List.append_assoc, hmore, List.append_assoc]
      rfl
    have hnone : familyWord start (more ++ last) = none := by
      apply familyWord_eq_none h
      rw [hcut, toList_hyphen, List.append_assoc]
      rfl
    rw [hcut, cutFrom_append]
    exact congrArg Except.ok hnone
  · have hstart : utility = (String.ofList front).toList ++ '-' :: last := by rw [String.toList_ofList, hutility]
    rw [familyWord_eq_none h hstart]

theorem family_ok (utility : List Char) : family utility = .ok (family? utility) := by
  by_cases h : utility ∈ familyNames
  · have hlisted := family_listed utility h
    cases hfamily : family utility with
    | error fault =>
      rw [hfamily] at hlisted
      cases hlisted
    | ok found =>
      rw [hfamily] at hlisted
      exact congrArg Except.ok (Option.some.inj hlisted)
  · have hnone : family? utility = none := by
      cases hfamily : family? utility with
      | none => rfl
      | some ds =>
        exfalso
        apply h
        obtain ⟨row, hrow, hmem⟩ := List.mem_flatMap.1 (family?_mem hfamily)
        obtain ⟨v, hv, heq⟩ := List.mem_map.1 hmem
        exact List.mem_flatMap.2 ⟨row, hrow, List.mem_map.2 ⟨v, hv, congrArg Prod.fst heq⟩⟩
    rw [family_unlisted h, hnone]

theorem keyword_ok (utility : List Char) : keyword utility = .ok (keyword? utility) := by
  unfold keyword keyword?
  dsimp only
  cases namesOfProperty.find? fun p => p.2.contains (String.ofList utility) with
  | some p => rfl
  | none =>
  cases singleKeywords.lookup (String.ofList utility) with
  | some single => rfl
  | none =>
  rw [started?_eq]
  cases hstarted : startedNames.find? (startsWithWord utility) with
  | some row =>
    obtain ⟨v, -, hutility⟩ := startsWithWord_iff.1 (List.find?_some hstarted)
    rw [Option.map_some, hutility, List.drop_left]
    dsimp only
    rw [cutFrom_append]
    rfl
  | none =>
  cases groupKeywords.lookup (String.ofList utility) with
  | some found => rfl
  | none => exact family_ok utility

end

/-! ## Names with a value -/

theorem textUtility_ok (value : List Char) : textUtility value = .ok (textUtility? value) := by
  unfold textUtility textUtility?
  rw [one_colour]
  cases fontSizes.lookup (String.ofList value) with
  | some row => rfl
  | none =>
    cases arbitrary? value with
    | none => rfl
    | some inner =>
      dsimp only
      split <;> rfl

/-- only a border with a colour needs the machine -/
theorem sides_ok (name : String) (value : Option (List Char)) (negative : Bool) :
    sides name value negative = .ok (sides? name value negative) := by
  unfold sides
  split
  · rename_i hborder
    obtain ⟨rfl, hwidth⟩ := hborder
    have hsides : sides? "border" value negative = some (one "border-color" (value.bind colour?)) := by
      simp [sides?, paddingSides, marginSides, insetSides, gapSides, borderSides, List.lookup_cons, hwidth]
    rw [hsides]
    cases value with
    | none => rfl
    | some v =>
      dsimp only
      rw [colour_ok]
      rfl
  · rfl

/-- names whose values are whole numbers -/
def levelNames : List String := ["z", "order"]

theorem valued_ok {name : String} {value : List Char} {negative : Bool}
    (h : negative = true → name ∈ levelNames → ¬IsLeast64 value) :
    valued name value negative = .ok (valued? name value negative) := by
  unfold valued
  split
  · rw [textUtility_ok]
    simp only [valued?]
  · rw [one_colour]
    simp only [valued?]
  · rw [one_colour]
    simp only [valued?]
  · rw [one_colour]
    simp only [valued?]
  · rw [integer_ok fun hnegative => h hnegative (by decide)]
    simp only [valued?]
    split <;> rfl
  · rw [order_ok fun hnegative => h hnegative (by decide)]
    simp only [valued?]
    rfl
  · rfl

theorem valued_overflow {name : String} (hname : name ∈ levelNames) {value : List Char} (h : IsLeast64 value) :
    valued name value true = .error .overflow := by
  have hauto : value ≠ "auto".toList := by
    obtain ⟨rest, rfl⟩ := h.exists_minus
    simp
  simp only [levelNames, List.mem_cons, List.not_mem_nil, or_false] at hname
  rcases hname with rfl | rfl
  · simp only [valued, if_neg hauto, integer_overflow h]
    rfl
  · simp only [valued, order_overflow h]
    rfl

/-- a level or an order of the least number of 64 bits -/
def IsLeastLevel (utility : List Char) : Prop :=
  ∃ name ∈ levelNames, ∃ v ∈ stripStart? (name ++ "-").toList utility, IsLeast64 v

instance : DecidablePred IsLeastLevel := fun _ => inferInstanceAs (Decidable (∃ name ∈ levelNames, _))

/-- a level or an order with a value is read as such: no other name starts it -/
theorem splitName?_level {name : String} (hname : name ∈ levelNames) {v : List Char} (hv : v ≠ []) :
    splitName? (namedClass name v) = some (name, some v) := by
  have hnames : ∀ name ∈ levelNames, name ∈ sideNames ++ plainNames ∧
      (∀ n ∈ sideNames ++ plainNames, (n ++ "-").toList <+: (name ++ "-").toList → n = name) ∧
      ∀ n ∈ sideNames ++ plainNames, ¬(name ++ "-").toList <+: n.toList := by decide +kernel
  obtain ⟨hlisted, hfirst, hlongest⟩ := hnames name hname
  apply splitName?_of_first hlisted hfirst hv
  intro n hn rest hrest
  exact absurd ⟨rest, hrest.symm⟩ (hlongest n hn)

/-- a utility that is not a keyword is resolved by its name -/
theorem byName_ok {utility : List Char} {negative : Bool}
    (hkeyword : (if negative then none else keyword? utility) = none) (h : negative = true → ¬IsLeastLevel utility) :
    byName utility negative = .ok (resolve? utility negative) := by
  unfold byName resolve?
  rw [hkeyword]
  cases hsplit : splitName? utility with
  | none => rfl
  | some parts =>
    obtain ⟨name, value⟩ := parts
    dsimp only
    split
    · rfl
    rw [sides_ok]
    cases sides? name value negative with
    | some found => rfl
    | none =>
      change (if _ then _ else _) = _
      dsimp only
      split
      · rfl
      cases value with
      | none => rfl
      | some v =>
        apply valued_ok
        intro hnegative hname hleast
        rcases valueAfter?_cases (valueAfter?_of_splitName? hsplit) with ⟨-, hnone⟩ | ⟨w, hutility, hvalue⟩
        · cases hnone
        · cases hvalue
          exact h hnegative ⟨name, hname, v, stripStart?_eq_some_iff.2 hutility, hleast⟩

/-- **Utilities.** The machine resolves a utility as the library does, unless it has to negate the least number. -/
theorem resolve_ok {utility : List Char} {negative : Bool} (h : negative = true → ¬IsLeastLevel utility) :
    resolve utility negative = .ok (resolve? utility negative) := by
  unfold resolve
  cases negative with
  | true =>
    rw [if_pos rfl]
    exact byName_ok rfl h
  | false =>
    rw [if_neg Bool.false_ne_true, keyword_ok]
    cases hkeyword : keyword? utility with
    | some found =>
      simp only [resolve?, hkeyword]
      rfl
    | none => exact byName_ok hkeyword h

/-- without a minus sign there is nothing to negate -/
theorem resolve_positive (utility : List Char) : resolve utility false = .ok (resolve? utility false) :=
  resolve_ok fun hnegative => absurd hnegative Bool.false_ne_true

/-- no machine resolves the negative form of such a level or order -/
theorem resolve_overflow {utility : List Char} (h : IsLeastLevel utility) :
    resolve utility true = .error .overflow := by
  obtain ⟨name, hname, v, hv, hleast⟩ := h
  have hutility : utility = namedClass name v := stripStart?_eq_some_iff.1 hv
  have hfull : v ≠ [] := by
    obtain ⟨rest, rfl⟩ := hleast.exists_minus
    exact List.cons_ne_nil _ _
  have hvalued := valued_overflow hname hleast
  have hlevel : ∀ name ∈ levelNames, name ∈ negatable ∧ name ≠ "shadow" ∧
      ∀ table ∈ [paddingSides, marginSides, insetSides, gapSides, borderSides, roundedCorners],
        table.lookup name = none := by decide
  obtain ⟨hnegatable, hshadow, htables⟩ := hlevel name hname
  simp only [List.forall_mem_cons, List.not_mem_nil, false_imp_iff, implies_true, and_true] at htables
  have hsides : sides? name (some v) true = none := by simp [sides?, htables]
  unfold resolve byName
  rw [if_pos rfl, hutility, splitName?_level hname hfull]
  simp only [sides_ok, hsides, ok_bind, if_neg hshadow, hvalued]
  simp [hnegatable]

end TsxWorkbench.Utility.Machine
