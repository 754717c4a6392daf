/-
Moved elements. An element is moved by writing the `translate` entry of its style anew.
- `moveElement_moves_or_refuses`: if the last entry with the key has a value of its own, it is read as one or two
  lengths and moved, or the move is refused; what cannot be read is never thrown away.
- `moveElement_writes_decimals`: what is written is two lengths, each a plain decimal if and only if the moved length is
  finite.

Two runs show why the conditions are there. An entry without a value of its own is written over unread
(`moveElement_over_shorthand`), and a text can be read as an infinite length, which no distance makes finite
(`moveElement_past_infinity`).
-/
import TsxWorkbench.Edit.Move
import TsxWorkbench.Proofs.Edit.Element
import TsxWorkbench.Proofs.Edit.Patch
import TsxWorkbench.Proofs.Edit.Pixels

namespace TsxWorkbench.Edit

open Text Syntax Analysis Number

variable {source indentUnit value : List Char} {point : Position} {e : Element} {whole literal : Span} {old : List Node}
  {dx dy x y : Binary64}

/-! ## Displacements as they are read -/

/-- a length in pixels, whose unit may be left out of a zero -/
inductive IsLength : List Char → Binary64 → Prop
  | pixels {digits : List Char} {x : Binary64} (hdigits : decimal? digits = some x) :
    IsLength (digits ++ "px".toList) x
  | zero {part : List Char} {x : Binary64} (hunit : ¬"px".toList <:+ part) (hpart : decimal? part = some x)
    (hzero : x.isZero = true) : IsLength part x

/-- one or two lengths with blanks around them; a single one is horizontal -/
inductive IsDisplacement (value : List Char) : Binary64 → Binary64 → Prop
  | one {part : List Char} {x : Binary64} (hwords : words value = [part]) (hx : IsLength part x) :
    IsDisplacement value x (.ofNat 0)
  | two {first second : List Char} {x y : Binary64} (hwords : words value = [first, second]) (hx : IsLength first x)
    (hy : IsLength second y) : IsDisplacement value x y

theorem length?_eq_some_iff {part : List Char} : length? part = some x ↔ IsLength part x := by
  have hends : "xp".toList.isPrefixOf part.reverse = true ↔ "px".toList <:+ part := by
    rw [List.isPrefixOf_iff_prefix, ← List.reverse_prefix]
    rfl
  unfold length?
  by_cases hunit : "px".toList <:+ part
  · obtain ⟨digits, rfl⟩ := hunit
    rw [if_pos (hends.2 (List.suffix_append _ _))]
    have hdigits : (digits ++ "px".toList).take ((digits ++ "px".toList).length - 2) = digits := by simp
    dsimp only
    rw [hdigits]
    constructor
    · exact .pixels
    · intro h
      generalize hpart : digits ++ "px".toList = part at h
      cases h with
      | pixels h => exact List.append_cancel_right hpart ▸ h
      | zero hnone => exact absurd (hpart ▸ List.suffix_append _ _) hnone
  · rw [if_neg (mt hends.1 hunit)]
    dsimp only
    rw [Option.bind_eq_some_iff]
    constructor
    · rintro ⟨x', hx', hzero⟩
      split at hzero
      · cases hzero
        exact .zero hunit hx' ‹_›
      · cases hzero
    · intro h
      cases h with
      | pixels => exact absurd (List.suffix_append _ _) hunit
      | zero _ hpart hzero => exact ⟨x, hpart, if_pos hzero⟩

theorem displacement?_eq_some_iff : displacement? value = some (x, y) ↔ IsDisplacement value x y := by
  unfold displacement?
  constructor
  · intro h
    split at h
    · rename_i part hwords
      obtain ⟨a, ha, heq⟩ := Option.map_eq_some_iff.1 h
      cases heq
      exact .one hwords (length?_eq_some_iff.1 ha)
    · rename_i first second hwords
      split at h
      · rename_i a b ha hb
        cases h
        exact .two hwords (length?_eq_some_iff.1 ha) (length?_eq_some_iff.1 hb)
      · cases h
    · cases h
  · intro h
    cases h with
    | one hwords hx =>
      rw [hwords]
      dsimp only
      rw [length?_eq_some_iff.2 hx, Option.map_some]
    | two hwords hx hy =>
      rw [hwords]
      dsimp only
      rw [length?_eq_some_iff.2 hx, length?_eq_some_iff.2 hy]

/-! ## Moves -/

/-- what becomes of an edit that gives a key of an object a value: it is refused if no text changes -/
def writeKey (indentUnit source : List Char) (literal : Span) (old : List Node) (key : String) (value : List Char) :
    EditResult :=
  let entries := old.map (textWith source key value)
  if entries = old.map (fun n => n.span.slice source) then .refused source .noChanges []
  else .applied (applySplices source [⟨literal, renderObject source literal old entries indentUnit⟩]) []

/-- an element is moved from where the value of its style says that it is -/
theorem currentDisplacement_of_value {value : Node} (hobject : StyleAttribute.of e = .object whole literal old)
    (hvalue : (StyleAttribute.of e).valueOf? "translate" = some value) : currentDisplacement (StyleAttribute.of e) =
      match (staticText? value).bind fun s => displacement? s.toList with
      | some current => .ok current
      | none => .error (.dynamicAttribute "style.translate") := by
  rw [hobject] at hvalue ⊢
  cases hread : (staticText? value).bind fun s => displacement? s.toList with
  | none => simp only [currentDisplacement, hvalue, hread]
  | some current => simp only [currentDisplacement, hvalue, hread]

/-- an element that is somewhere by an entry of its style gets another value there -/
theorem moveElement_of_current (hlocate : locate source point = .ok e)
    (hobject : StyleAttribute.of e = .object whole literal old) (hentry : ∃ n ∈ old, entryKey? n = some "translate")
    (hcurrent : currentDisplacement (StyleAttribute.of e) = .ok (x, y)) (hdx : dx.isFinite = true)
    (hdy : dy.isFinite = true) (indentUnit : List Char) : moveElement indentUnit source point dx dy =
      writeKey indentUnit source literal old "translate" (Json.quote (displacementText (x.add dx) (y.add dy))) := by
  rw [moveElement_of_locate hlocate hdx hdy, planMove_of_current hcurrent, planStyle_one hobject hentry]
  unfold writeKey
  generalize old.map (textWith source "translate" _) = entries
  dsimp only
  by_cases hsame : entries = old.map fun n => n.span.slice source
  · rw [if_pos hsame, if_pos hsame]
  · rw [if_neg hsame, if_neg hsame]

/-- **Moved or refused.** Let the last entry with the key have a value of its own. If this is a static text of one or
two lengths, and the distances are finite, then every entry with the key gets the sums of lengths and distances as its
value. Otherwise the move is refused and the source stays as it is. -/
theorem moveElement_moves_or_refuses {before after : List Node} {span : Span} {name value : Node}
    (hlocate : locate source point = .ok e)
    (hobject : StyleAttribute.of e = .object whole literal (before ++ .keyValue span name value :: after))
    (hkey : staticKey? name = some "translate") (hlast : ∀ n ∈ after, entryKey? n ≠ some "translate")
    (indentUnit : List Char) (dx dy : Binary64) :
    (∀ s x y, staticText? value = some s → IsDisplacement s.toList x y → dx.isFinite = true → dy.isFinite = true →
      moveElement indentUnit source point dx dy =
        writeKey indentUnit source literal (before ++ .keyValue span name value :: after) "translate"
          (Json.quote (displacementText (x.add dx) (y.add dy)))) ∧
    ((∀ s x y, staticText? value = some s → ¬IsDisplacement s.toList x y) ∨ dx.isFinite = false ∨ dy.isFinite = false →
      ∃ reason, moveElement indentUnit source point dx dy = .refused source reason []) := by
  have hvalue : (StyleAttribute.of e).valueOf? "translate" = some value :=
    hobject ▸ StyleAttribute.valueOf?_last hkey hlast whole literal before
  have hcurrent := currentDisplacement_of_value hobject hvalue
  constructor
  · intro s x y hs hread hdx hdy
    have hentry : ∃ n ∈ before ++ .keyValue span name value :: after, entryKey? n = some "translate" :=
      ⟨_, List.mem_append_right _ List.mem_cons_self, hkey⟩
    rw [hs, Option.bind_some, displacement?_eq_some_iff.2 hread] at hcurrent
    exact moveElement_of_current hlocate hobject hentry hcurrent hdx hdy indentUnit
  · rintro (hunread | hinfinite)
    · obtain hrefused | ⟨e', x, y, -, hlocate', hread, -, -⟩ := moveElement_cases indentUnit source point dx dy
      · exact hrefused
      -- what was moved has been read before
      obtain rfl : e' = e := Except.ok.inj (hlocate'.symm.trans hlocate)
      rw [hread] at hcurrent
      split at hcurrent
      · cases hcurrent
        rename_i hsome
        obtain ⟨s, hs, hd⟩ := Option.bind_eq_some_iff.1 hsome
        exact absurd (displacement?_eq_some_iff.1 hd) (hunread s x y hs)
      · cases hcurrent
    · exact ⟨_, moveElement_of_not_finite hinfinite indentUnit source point⟩

/-- an element that has been moved -/
def moved : List Char := "<p style=\x7b\x7b top, translate: \"10px 5px\" \x7d\x7d/>".toList

/-- the element moved on, 2.5 pixels to the right and 5 up -/
def movedOn : List Char := "<p style=\x7b\x7b top, translate: \"12.5px 0px\" \x7d\x7d/>".toList

theorem moveElement_moved :
    moveElement [] moved ⟨1, 1⟩ (.ofRatio false 5 2) (.ofInt (-5)) = .applied movedOn [] := by decide +kernel

/-- an object whose last entry is the displacement -/
def showsMove (e : Element) : Bool :=
  match StyleAttribute.of e with
  | .object _ _ [_, .keyValue _ name value] =>
    staticKey? name == some "translate" && staticText? value == some "10px 5px"
  | _ => false

theorem moveElement_moves_or_refuses_onward : ∃ e whole literal first span name value,
    locate moved ⟨1, 1⟩ = .ok e ∧ StyleAttribute.of e = .object whole literal [first, .keyValue span name value] ∧
      writeKey [] moved literal [first, .keyValue span name value] "translate"
        (Json.quote (displacementText ((Binary64.ofNat 10).add (.ofRatio false 5 2))
          ((Binary64.ofNat 5).add (.ofInt (-5))))) =
          .applied movedOn [] := by
  have hany : (locate moved ⟨1, 1⟩).toOption.any showsMove = true := by decide +kernel
  obtain ⟨e, hlocate, hshows⟩ := exists_of_toOption_any hany
  unfold showsMove at hshows
  split at hshows
  · rename_i whole literal first span name value hobject
    simp only [Bool.and_eq_true, beq_iff_eq] at hshows
    obtain ⟨hkey, htext⟩ := hshows
    have hread : IsDisplacement "10px 5px".toList (.ofNat 10) (.ofNat 5) :=
      displacement?_eq_some_iff.1 (by decide +kernel)
    have hlast : StyleAttribute.of e = .object whole literal ([first] ++ .keyValue span name value :: []) := hobject
    have hwrites := (moveElement_moves_or_refuses hlocate hlast hkey (by simp) [] (.ofRatio false 5 2)
      (.ofInt (-5))).1 _ _ _ htext hread (by decide) (by decide)
    exact ⟨e, whole, literal, first, span, name, value, hlocate, hobject, hwrites.symm.trans moveElement_moved⟩
  · cases hshows

/-- an element that has been moved by a variable of the name of the key -/
def movedByVariable : List Char := "const a = <div style=\x7b\x7b translate \x7d\x7d>x</div>;".toList

/-- an object whose only entry is the key itself -/
def showsVariable (e : Element) : Bool :=
  match StyleAttribute.of e with
  | .object _ _ [.shorthand _ name] => name == "translate"
  | _ => false

/-- the variable cannot be read, and yet it is written over -/
theorem moveElement_over_shorthand :
    (∃ e whole literal span, locate movedByVariable ⟨1, 12⟩ = .ok e ∧
      StyleAttribute.of e = .object whole literal [.shorthand span "translate"]) ∧
    moveElement [] movedByVariable ⟨1, 12⟩ (.ofNat 1) (.ofNat 1) =
      .applied "const a = <div style=\x7b\x7b translate: \"1px 1px\" \x7d\x7d>x</div>;".toList [] := by
  constructor
  · have hany : (locate movedByVariable ⟨1, 12⟩).toOption.any showsVariable = true := by decide +kernel
    obtain ⟨e, hlocate, hshows⟩ := exists_of_toOption_any hany
    unfold showsVariable at hshows
    split at hshows
    · rename_i whole literal span name hobject
      obtain rfl : name = "translate" := eq_of_beq hshows
      exact ⟨e, whole, literal, span, hlocate, hobject⟩
    · cases hshows
  · decide +kernel

/-! ## Decimals -/

theorem plain_of_isNumberChar {c : Char} (h : isNumberChar c = true) : 0x20 ≤ c.toNat ∧ c ≠ '\x22' ∧ c ≠ '\\' := by
  refine ⟨?_, ?_, ?_⟩
  · rcases code_of_isNumberChar h with h | h | h | rfl | rfl | rfl <;> first | omega | decide
  · rintro rfl
    cases h
  · rintro rfl
    cases h

/-- nothing in a displacement has to be escaped -/
theorem quote_displacementText (x y : Binary64) : Json.quote (displacementText x y) =
    '\x22' :: (formatPixels x ++ "px ".toList ++ formatPixels y ++ "px".toList ++ ['\x22']) := by
  have hlength (z : Binary64) : ∀ c ∈ formatPixels z, 0x20 ≤ c.toNat ∧ c ≠ '\x22' ∧ c ≠ '\\' :=
    fun c hc => plain_of_isNumberChar (chars_formatPixels z c hc)
  have hunit : ∀ c ∈ ['p', 'x', ' '], 0x20 ≤ c.toNat ∧ c ≠ '\x22' ∧ c ≠ '\\' := by
    intro c hc
    simp only [List.mem_cons, List.not_mem_nil, or_false] at hc
    rcases hc with rfl | rfl | rfl <;> decide
  unfold displacementText
  rw [Json.quote_plain]
  simp only [List.forall_mem_append]
  exact ⟨⟨⟨hlength x, hunit⟩, hlength y⟩, fun c hc => hunit c (List.mem_append_left [' '] hc)⟩

/-- a result in which a pair of lengths has been written under `translate`: it is the value of each entry with this
key -/
def WritesLengths (indentUnit source : List Char) (e : Element) (first second : List Char) (result : EditResult) :
    Prop :=
  ∃ entries splice, result = .applied (applySplices source [splice]) [] ∧
    WritesStyle source e indentUnit entries (some splice) ∧ (∃ entry ∈ entries, entry.key = some "translate") ∧
    ∀ entry ∈ entries, entry.key = some "translate" → Holds source (StyleAttribute.of e).entries "translate"
      ('\x22' :: (first ++ "px ".toList ++ second ++ "px".toList ++ ['\x22'])) entry.text

/-- **Decimals.** An applied move writes two lengths. Each is the moved one as a plain decimal, or it is no decimal
because the moved one is not finite. -/
theorem moveElement_writes_decimals (h : (moveElement indentUnit source point dx dy).changed = true) :
    ∃ e x y first second, locate source point = .ok e ∧ currentDisplacement (StyleAttribute.of e) = .ok (x, y) ∧
      WritesLengths indentUnit source e first second (moveElement indentUnit source point dx dy) ∧
      Rounds (x.add dx) first ∧ Rounds (y.add dy) second := by
  obtain ⟨reason, hrefused⟩ | ⟨e, x, y, splice, hlocate, hcurrent, hplan, hresult⟩ :=
    moveElement_cases indentUnit source point dx dy
  · rw [hrefused] at h
    cases h
  rw [quote_displacementText] at hplan
  have hwrites := planStyle_writes hplan
  obtain ⟨hsome, hall⟩ := holds_one source "translate" _ (StyleAttribute.of e).entries
  exact ⟨e, x, y, _, _, hlocate, hcurrent, ⟨_, splice, hresult, hwrites, hsome, hall⟩, rounds_formatPixels _,
    rounds_formatPixels _⟩

theorem moveElement_writes_decimals_onward : ∃ e first second, locate moved ⟨1, 1⟩ = .ok e ∧
    WritesLengths [] moved e first second (.applied movedOn []) ∧ Rounds (.ofRatio false 25 2) first ∧
      Rounds (.ofNat 0) second := by
  obtain ⟨e, x, y, first, second, hlocate, hcurrent, hwrites, hfirst, hsecond⟩ :=
    moveElement_writes_decimals (congrArg EditResult.changed moveElement_moved)
  have hany : ((locate moved ⟨1, 1⟩).toOption.any fun e =>
      (currentDisplacement (StyleAttribute.of e)).toOption.any (· == (.ofNat 10, .ofNat 5))) = true := by decide +kernel
  obtain ⟨e', hlocate', hread⟩ := exists_of_toOption_any hany
  obtain ⟨current, hcurrent', hten⟩ := exists_of_toOption_any hread
  obtain rfl : e' = e := Except.ok.inj (hlocate'.symm.trans hlocate)
  have hplace : (x, y) = (.ofNat 10, .ofNat 5) :=
    (Except.ok.inj (hcurrent.symm.trans hcurrent')).trans (eq_of_beq hten)
  obtain ⟨rfl, rfl⟩ := Prod.mk.inj hplace
  have hsums : (Binary64.ofNat 10).add (.ofRatio false 5 2) = .ofRatio false 25 2 ∧
      (Binary64.ofNat 5).add (.ofInt (-5)) = .ofNat 0 := by decide +kernel
  rw [hsums.1] at hfirst
  rw [hsums.2] at hsecond
  exact ⟨_, first, second, hlocate, moveElement_moved ▸ hwrites, hfirst, hsecond⟩

/-- an element that has been moved without end -/
def movedWithoutEnd : List Char := "const a = <div style=\x7b\x7b translate: \"infpx\" \x7d\x7d>x</div>;".toList

/-- an infinite length is read, and written as no decimal -/
theorem moveElement_past_infinity :
    moveElement [] movedWithoutEnd ⟨1, 12⟩ (.ofNat 1) (.ofNat 0) =
      .applied "const a = <div style=\x7b\x7b translate: \"infpx 0px\" \x7d\x7d>x</div>;".toList [] ∧
    ∀ first second, "infpx 0px".toList = first ++ "px ".toList ++ second ++ "px".toList →
      ¬(IsPlainDecimal first ∧ IsPlainDecimal second) := by
  refine ⟨by decide +kernel, ?_⟩
  rintro first second htext ⟨hfirst, -⟩
  cases first with
  | nil =>
    obtain ⟨_, _, hdecimal⟩ := hfirst
    exact hdecimal.ne_nil rfl
  | cons c cs =>
    obtain rfl : 'i' = c := (List.cons.inj htext).1
    exact not_isPlainDecimal_of_mem List.mem_cons_self (by decide) hfirst

end TsxWorkbench.Edit
