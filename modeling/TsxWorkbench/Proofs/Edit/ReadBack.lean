/-
Class texts read back. An edit writes a class text in one of three forms: between the quotes of the attribute, as a
string in braces in the place of these quotes, or as a string inside the braces that are there. `ReadsBack` says what
is found where such a text was written.

- `readsBack_written`: the text that is written is read back as itself, but between quotes its character references
  are decoded.
- `updateStyle_places_classes`: an update writes the text of the classes in the place of the old one.
- `written_classes_read_back`: both together, with the texts that are read back as they were meant.

A class with a character reference in it is decoded once more with every update: `reference_decoded_again`.
-/
import TsxWorkbench.Proofs.Edit.Frame
import TsxWorkbench.Proofs.Edit.Precedence
import TsxWorkbench.Proofs.Syntax.WrittenValue

namespace TsxWorkbench.Edit

open Text Syntax Analysis

variable {source indentUnit v w text : List Char} {point : Position} {e : Element} {target : ClassTarget}

/-! ## Class texts -/

/-- text of a class attribute -/
def classText? : Node → Option String
  | .attr _ name value => if isClassAttribute name then value.bind attributeText? else none
  | _ => none

namespace ClassTarget

/-- the class text that is there -/
def value : ClassTarget → List Char
  | .static value _ _ => value
  | _ => []

/-- what an edit writes for a class text -/
def written (target : ClassTarget) (v : List Char) : List Char :=
  match target with
  | .missing _ => " className=".toList ++ classLiteral v (some '\x22')
  | .static _ _ quote => classLiteral v quote
  | .dynamic => []

/-- whether a class text is written between quotes, as it is -/
def quotes (target : ClassTarget) (v : List Char) : Bool :=
  match target with
  | .missing _ => !v.contains '\x22'
  | .static _ _ (some q) => (q = '\x22' || q = '\x27') && !v.contains q
  | _ => false

/-- what is read where a class text was written -/
def readValue (target : ClassTarget) (v : List Char) : List Char := if target.quotes v then decodeEntities v else v

/-- a class text is read where a text was written: as an attribute after the name of the tag, as the value of the
attribute that was there, or as an expression in its braces -/
def ReadsBack (target : ClassTarget) (text v : List Char) : Prop :=
  match target with
  | .missing _ => ∀ depth, Finds Stands (attribute? (readGoal (depth + 3))) text
      fun found => found.bind classText? = some (String.ofList v)
  | .static _ _ (some _) => ∀ depth, Finds Precedes (attributeValue (readGoal (depth + 3))) text
      fun found => attributeText? found = some (String.ofList v)
  | .static _ _ none => ∀ depth, Finds Stands (primary (readGoal depth)) text
      fun found => staticText? found = some (String.ofList v)
  | .dynamic => False

end ClassTarget

/-! ## Reading back -/

theorem exists_stands (u : Tail) : ∃ s, Stands u s := ⟨.before u ⟨0, 0⟩ 1, rfl, Nat.one_pos⟩

theorem exists_precedes (u : Tail) : ∃ s, Precedes u s := ⟨⟨u, default, u, ⟨0, 0⟩, 1⟩, rfl, Nat.one_pos⟩

/-- what is found in a text is determined -/
theorem eq_of_finds {α : Type} {starts : Tail → Reading → Prop} {p : Parse α} {value? : α → Option String}
    (hv : Finds starts p text fun a => value? a = some (String.ofList v))
    (hw : Finds starts p text fun a => value? a = some (String.ofList w)) (hstart : ∀ u, ∃ s, starts u s) : v = w := by
  obtain ⟨s, hs⟩ := hstart ⟨text ++ [], 0⟩
  obtain ⟨a, t, hrun, ha, -⟩ := hv [] 0 s hs
  obtain ⟨b, t', hrun', hb, -⟩ := hw [] 0 s hs
  obtain ⟨rfl, rfl⟩ : a = b ∧ t = t' := by simpa [hrun] using hrun'
  rw [ha] at hb
  exact String.ofList_injective (Option.some.inj hb)

theorem readsBack_unique (hv : target.ReadsBack text v) (hw : target.ReadsBack text w) : v = w := by
  cases target with
  | missing place => exact eq_of_finds (hv 0) (hw 0) exists_stands
  | static value span quote =>
    cases quote with
    | some q => exact eq_of_finds (hv 0) (hw 0) exists_precedes
    | none => exact eq_of_finds (hv 0) (hw 0) exists_stands
  | dynamic => exact hv.elim

/-- a text in the place of a quoted value -/
theorem finds_classLiteral (v : List Char) (q : Char) (value : List Char) (span : Span) (depth : Nat) :
    Finds Precedes (attributeValue (readGoal (depth + 3))) (classLiteral v (some q)) fun found =>
      attributeText? found = some (String.ofList ((ClassTarget.static value span (some q)).readValue v)) := by
  by_cases h : (q = '\x22' ∨ q = '\x27') ∧ q ∉ v
  · have hliteral : classLiteral v (some q) = q :: v ++ [q] := if_pos (by simpa using h)
    have hread : (ClassTarget.static value span (some q)).readValue v = decodeEntities v :=
      if_pos (by simpa [ClassTarget.quotes] using h)
    rw [hliteral, hread]
    refine (finds_quoted _ h.1 h.2).mono ?_
    rintro _ ⟨span, rfl⟩
    rfl
  · have hliteral : classLiteral v (some q) = '\x7b' :: Json.quote v ++ ['\x7d'] := if_neg (by simpa using h)
    have hread : (ClassTarget.static value span (some q)).readValue v = v :=
      if_neg (by simpa [ClassTarget.quotes] using h)
    rw [hliteral, hread]
    refine (finds_braced depth v).mono ?_
    rintro _ ⟨span, inner, rfl⟩
    rfl

/-- a literal starts with a quote or a brace -/
theorem exists_classLiteral_cons (v : List Char) : ∃ c cs, classLiteral v (some '\x22') = c :: cs ∧
    (c = '\x22' ∨ c = '\x27' ∨ c = '\x7b') := by
  dsimp only [classLiteral]
  split
  · exact ⟨_, _, rfl, .inl rfl⟩
  · exact ⟨_, _, rfl, .inr (.inr rfl)⟩

/-- **Written class texts.** What is written is read back as itself, but between quotes its character references are
decoded. -/
theorem readsBack_written (htarget : target ≠ .dynamic) (v : List Char) :
    target.ReadsBack (target.written v) (target.readValue v) := by
  cases target with
  | missing place =>
    intro depth
    obtain ⟨c, cs, hliteral, hc⟩ := exists_classLiteral_cons v
    have hvalue := finds_classLiteral v '\x22' [] ⟨0, 0⟩ depth
    rw [hliteral] at hvalue
    show Finds _ _ (" className=".toList ++ classLiteral v (some '\x22')) _
    rw [hliteral]
    refine (finds_className hc hvalue).mono ?_
    rintro _ ⟨span, found, rfl, hfound⟩
    exact hfound
  | static value span quote =>
    cases quote with
    | some q => exact finds_classLiteral v q value span
    | none =>
      intro depth
      refine (finds_string (readGoal depth) v).mono ?_
      rintro _ ⟨span, rfl⟩
      rfl
  | dynamic => exact absurd rfl htarget

/-- a text is read back as itself unless it stands between quotes with a reference in it -/
theorem readValue_eq_self_iff : target.readValue v = v ↔ ¬(target.quotes v = true ∧ HasReference v) := by
  unfold ClassTarget.readValue
  cases target.quotes v with
  | true => simpa using decodeEntities_eq_self_iff
  | false => simp

/-! ## Updates -/

/-- the text of a class splice is what is written for the new class list -/
theorem text_of_classSplice? {updates : List (StyleField × Option (List Char))} {splice : Splice}
    (h : classSplice? target updates = some splice) :
    splice.text = target.written (updateClasses target.value updates) := by
  cases target with
  | missing place =>
    dsimp only [classSplice?] at h
    split at h
    · cases h
    · cases h
      rfl
  | static value span quote =>
    dsimp only [classSplice?] at h
    split at h
    · cases h
    · cases h
      rfl
  | dynamic => cases h

/-- an applied update carries out its class splice, with the splice that is planned for the style if there is one -/
theorem exists_splices_of_updateStyle {update : StyleUpdate} (hlocate : locate source point = .ok e)
    (hchanged : (updateStyle indentUnit source point update).changed = true) :
    ∃ style : Option Splice,
      (∀ s ∈ style, planStyle source e (StylePlan.of (ClassTarget.of source e) update.entries).patch indentUnit =
        .ok (some s)) ∧
      (updateStyle indentUnit source point update).source = applySplices source ((classSplice? (ClassTarget.of source e)
        (StylePlan.of (ClassTarget.of source e) update.entries).classes).toList ++ style.toList) := by
  cases hplan : planStyle source e (StylePlan.of (ClassTarget.of source e) update.entries).patch indentUnit with
  | ok style =>
    refine ⟨style, fun s hs => ?_, updateStyle_source hlocate hplan hchanged⟩
    obtain rfl : style = some s := hs
    rfl
  | error reason =>
    -- a style that is not understood stays as it is
    refine ⟨none, nofun, ?_⟩
    unfold updateStyle at hchanged ⊢
    split at hchanged
    · cases hchanged
    rename_i hentries
    rw [if_neg hentries]
    rw [hlocate] at hchanged ⊢
    dsimp only [planUpdate] at hchanged ⊢
    rw [hplan] at hchanged ⊢
    dsimp only at hchanged ⊢
    split at hchanged
    · rename_i hsets
      rw [if_pos hsets, Option.toList_none, List.append_nil]
      split at hchanged
      · cases hchanged
      rename_i hsplices
      rw [if_neg hsplices]
      rfl
    · cases hchanged

/-- the text of the classes stands in the place of the old one: the source before it is as it was, or the source after
it is -/
theorem updateStyle_places_classes {update : StyleUpdate} {splice : Splice} (hlocate : locate source point = .ok e)
    (hchanged : (updateStyle indentUnit source point update).changed = true)
    (hsplice : classSplice? (ClassTarget.of source e)
      (StylePlan.of (ClassTarget.of source e) update.entries).classes = some splice) :
    ∃ before after, (updateStyle indentUnit source point update).source = before ++ splice.text ++ after ∧
      (before = takeBytes splice.span.lo source ∨ after = dropBytes splice.span.hi source) := by
  obtain ⟨htags, hattributes⟩ := tagsPlaced_of_locate hlocate
  have htouches := classSplice?_touches (classTarget_inPlace hattributes) hsplice
  obtain ⟨style, hstyle, hsource⟩ := exists_splices_of_updateStyle hlocate hchanged
  rw [hsource, hsplice]
  cases style with
  | none =>
    rw [Option.toList_some, Option.toList_none, List.append_nil, applySplices_singleton]
    exact ⟨_, _, rfl, .inl rfl⟩
  | some s =>
    have hs := planStyle_touches hattributes (hstyle s rfl)
    exact applySplices_pair_place (htouches.fits htags) (hs.fits htags)
      (htouches.apart htags hs style_ne_of_isClassAttribute)

/-- **Class texts are read back.** What is written for a class text is read back in its place as that text if and only
if it is not put between quotes with a character reference in it; a reference there is decoded. And an update that
makes this text of the classes writes just that in the place of the old ones. -/
theorem written_classes_read_back (htarget : target ≠ .dynamic) (v : List Char) :
    target.ReadsBack (target.written v) (target.readValue v) ∧
      (target.ReadsBack (target.written v) v ↔ ¬(target.quotes v = true ∧ HasReference v)) ∧
      ∀ (indentUnit source : List Char) (point : Position) (update : StyleUpdate) (e : Element)
        (updates : List (StyleField × Option (List Char))) (splice : Splice), locate source point = .ok e →
        (updateStyle indentUnit source point update).changed = true → ClassTarget.of source e = target →
        (StylePlan.of target update.entries).classes = updates → updateClasses target.value updates = v →
        classSplice? target updates = some splice →
        splice.text = target.written v ∧
          ∃ before after, (updateStyle indentUnit source point update).source = before ++ splice.text ++ after ∧
            (before = takeBytes splice.span.lo source ∨ after = dropBytes splice.span.hi source) := by
  have hread := readsBack_written htarget v
  have hself : target.ReadsBack (target.written v) v ↔ target.readValue v = v := by
    refine ⟨fun h => readsBack_unique hread h, fun h => ?_⟩
    rwa [h] at hread
  refine ⟨hread, hself.trans readValue_eq_self_iff, ?_⟩
  rintro indentUnit source point update e _ splice hlocate hchanged rfl rfl rfl hsplice
  exact ⟨text_of_classSplice? hsplice, updateStyle_places_classes hlocate hchanged hsplice⟩

/-- a class with quotes, which are written as references in a quoted attribute -/
def quotedContent : List Char := "const a = <div className=\"content-[&quot;a&quot;]\">x</div>;".toList

/-- the classes of an element: a text with quotes -/
def quotedClasses : ClassTarget := .static "content-[\"a\"]".toList ⟨25, 50⟩ (some '\x22')

/-- the classes with one more, which go into braces since they hold the quote -/
theorem written_classes_read_back_quotedContent :
    quotedClasses.ReadsBack "\x7b\"content-[\\\"a\\\"] text-[#00ff00]\"\x7d".toList
        "content-[\"a\"] text-[#00ff00]".toList ∧
      ∃ before after, (updateStyle [] quotedContent ⟨1, 12⟩ green).source =
        before ++ "\x7b\"content-[\\\"a\\\"] text-[#00ff00]\"\x7d".toList ++ after := by
  have hany : (locate quotedContent ⟨1, 12⟩).toOption.any (ClassTarget.of quotedContent · = quotedClasses) = true := by
    decide +kernel
  have hchanged : (updateStyle [] quotedContent ⟨1, 12⟩ green).changed = true := by decide +kernel
  have hsplice : classSplice? quotedClasses (StylePlan.of quotedClasses green.entries).classes =
      some ⟨⟨25, 50⟩, "\x7b\"content-[\\\"a\\\"] text-[#00ff00]\"\x7d".toList⟩ := by decide +kernel
  have hquotes : quotedClasses.quotes "content-[\"a\"] text-[#00ff00]".toList = false := by decide +kernel
  obtain ⟨e, hlocate, htarget⟩ := exists_of_toOption_any hany
  obtain ⟨-, hread, hupdate⟩ := written_classes_read_back (show quotedClasses ≠ .dynamic from nofun)
    "content-[\"a\"] text-[#00ff00]".toList
  obtain ⟨htext, before, after, hsource, -⟩ := hupdate [] quotedContent ⟨1, 12⟩ green e _ _ hlocate hchanged
    (of_decide_eq_true htarget) rfl (by decide +kernel) hsplice
  rw [← htext] at hread
  exact ⟨hread.2 fun h => Bool.false_ne_true (hquotes.symm.trans h.1), before, after, hsource⟩

/-- a class that shows a reference: its ampersand is written as a reference -/
def shownReference : List Char := "const a = <div className=\"p-4 content-['&amp;lt;']\">x</div>;".toList

/-- the classes are understood, the update changes only them, and they stay between their quotes -/
def keepsReference (e : Element) : Bool :=
  let target : ClassTarget := .static "p-4 content-['&lt;']".toList ⟨25, 51⟩ (some '\x22')
  let plan := StylePlan.of target green.entries
  ClassTarget.of shownReference e = target &&
    classSplice? target plan.classes = some ⟨⟨25, 51⟩, "\"p-4 content-['&lt;'] text-[#00ff00]\"".toList⟩ &&
    (planStyle shownReference e plan.patch []).toOption = some none

/-- **References are decoded once more.** The class text holds the characters of a reference. It is written between the
quotes as it is, and is read back with that reference decoded. -/
theorem reference_decoded_again : ¬∀ (indentUnit source : List Char) (point : Position) (update : StyleUpdate)
    (e e' : Element), locate source point = .ok e → ClassTarget.of source e ≠ .dynamic →
      (updateStyle indentUnit source point update).changed = true →
      locate (updateStyle indentUnit source point update).source point = .ok e' →
      (ClassTarget.of (updateStyle indentUnit source point update).source e').value =
        updateClasses (ClassTarget.of source e).value
          (StylePlan.of (ClassTarget.of source e) update.entries).classes := by
  intro h
  have hany : (locate shownReference ⟨1, 12⟩).toOption.any keepsReference = true := by decide +kernel
  have hchanged : (updateStyle [] shownReference ⟨1, 12⟩ green).changed = true := by decide +kernel
  obtain ⟨e, hlocate, hkeeps⟩ := exists_of_toOption_any hany
  simp only [keepsReference, Bool.and_eq_true, decide_eq_true_eq] at hkeeps
  obtain ⟨⟨htarget, hclasses⟩, hstyle⟩ := hkeeps
  have hresult : (updateStyle [] shownReference ⟨1, 12⟩ green).source =
      "const a = <div className=\"p-4 content-['&lt;'] text-[#00ff00]\">x</div>;".toList := by
    rw [← htarget] at hstyle
    cases hplan : planStyle shownReference e (StylePlan.of (ClassTarget.of shownReference e) green.entries).patch []
    with
    | error =>
      rw [hplan] at hstyle
      cases hstyle
    | ok style =>
      rw [hplan] at hstyle
      obtain rfl := Option.some.inj hstyle
      rw [updateStyle_source hlocate hplan hchanged, htarget, hclasses]
      exact (applySplices_singleton _ _).trans (by decide +kernel)
  have hread : (locate (updateStyle [] shownReference ⟨1, 12⟩ green).source ⟨1, 12⟩).toOption.any
      (fun e' => (ClassTarget.of (updateStyle [] shownReference ⟨1, 12⟩ green).source e').value =
        "p-4 content-['<'] text-[#00ff00]".toList) = true := by
    rw [hresult]
    decide +kernel
  obtain ⟨e', hlocate', hvalue⟩ := exists_of_toOption_any hread
  have hsame := h [] shownReference ⟨1, 12⟩ green e e' hlocate (by simp [htarget]) hchanged hlocate'
  rw [of_decide_eq_true hvalue, htarget] at hsame
  exact absurd hsame (by decide +kernel)

end TsxWorkbench.Edit
