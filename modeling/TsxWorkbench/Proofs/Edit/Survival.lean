/-
What an edit of a style object leaves of it. The object is written anew from its entries. An entry that the edit does
not name is taken over as it stands, and of one whose value is replaced all that stands before the value is, with the
comments in these parts. What stands between two entries is not taken over.

- `InOrder`: pieces that occur in a text one after the other.
- `inOrder_renderObject`, `inOrder_keptTexts`: the kept parts of the entries are in the new object, and in the old one.
- `style_edits_keep_parts`: they are in the source that a style update or a move gives back, in their order.
- `comment_between_entries_lost`: a comment between two entries goes when the first one is removed.
-/
import TsxWorkbench.Proofs.Edit.Frame
import TsxWorkbench.Proofs.Edit.Precedence

namespace TsxWorkbench.Edit

open Text Syntax Syntax.Node Analysis Number

variable {source indentUnit : List Char} {point : Position} {e : Element} {whole literal : Span} {old : List Node}
  {p : StylePatch} {lo hi : Nat}

/-! ## Pieces in order -/

/-- pieces that occur in a text one after the other, apart from one another -/
inductive InOrder : List (List Char) → List Char → Prop where
  | nil (text : List Char) : InOrder [] text
  | cons (gap piece : List Char) {pieces : List (List Char)} {rest : List Char} (h : InOrder pieces rest) :
    InOrder (piece :: pieces) (gap ++ piece ++ rest)

namespace InOrder

variable {pieces : List (List Char)} {text : List Char}

theorem exists_of_cons {piece : List Char} (h : InOrder (piece :: pieces) text) :
    ∃ gap rest, text = gap ++ piece ++ rest ∧ InOrder pieces rest := by
  cases h with
  | cons gap _ h => exact ⟨gap, _, rfl, h⟩

theorem append_right (h : InOrder pieces text) (after : List Char) : InOrder pieces (text ++ after) := by
  induction h with
  | nil => exact .nil _
  | cons gap piece _ ih =>
    rw [List.append_assoc]
    exact .cons gap piece ih

theorem append_left (h : InOrder pieces text) (before : List Char) : InOrder pieces (before ++ text) := by
  cases h with
  | nil => exact .nil _
  | cons gap piece h =>
    rw [← List.append_assoc, ← List.append_assoc]
    exact .cons (before ++ gap) piece h

theorem widen {text' : List Char} (h : InOrder pieces text) (hwithin : text <:+: text') : InOrder pieces text' := by
  obtain ⟨before, after, rfl⟩ := hwithin
  exact (h.append_left before).append_right after

/-- pieces in a joined text, each in its part -/
theorem intercalate (separator : List Char) {part : List Char → List Char} (hpart : ∀ piece, piece <:+: part piece)
    (pieces : List (List Char)) : InOrder pieces (List.intercalate separator (pieces.map part)) := by
  induction pieces with
  | nil => exact .nil _
  | cons piece pieces ih =>
    obtain ⟨before, after, heq⟩ := hpart piece
    have hjoined : ∃ rest, List.intercalate separator ((piece :: pieces).map part) = part piece ++ rest ∧
        InOrder pieces rest := by
      cases pieces with
      | nil => exact ⟨[], by simp, .nil _⟩
      | cons next pieces =>
        refine ⟨separator ++ List.intercalate separator ((next :: pieces).map part), ?_, ih.append_left separator⟩
        rw [List.map_cons, List.map_cons, List.intercalate_cons_cons, List.append_assoc]
    obtain ⟨rest, hrest, h⟩ := hjoined
    rw [hrest, ← heq, List.append_assoc]
    exact .cons before piece (h.append_left after)

/-- parts of some of the pieces, in the same order -/
theorem filterMap {α : Type} {f g : α → Option (List Char)} {items : List α} {more : List (List Char)}
    (h : InOrder (items.filterMap g ++ more) text)
    (hparts : ∀ a ∈ items, ∀ part ∈ f a, ∃ piece ∈ g a, part <:+: piece) : InOrder (items.filterMap f) text := by
  induction items generalizing text with
  | nil => exact .nil _
  | cons a items ih =>
    have hrest := fun b hb => hparts b (List.mem_cons_of_mem a hb)
    have ha := hparts a List.mem_cons_self
    rw [List.filterMap_cons] at h ⊢
    cases hg : g a with
    | none =>
      have hf : f a = none := Option.eq_none_iff_forall_not_mem.2 fun part hpart => by
        obtain ⟨piece, hpiece, -⟩ := ha part hpart
        rw [hg] at hpiece
        cases hpiece
      rw [hg] at h
      rw [hf]
      exact ih h hrest
    | some piece =>
      rw [hg] at h
      have hcons : InOrder (piece :: (items.filterMap g ++ more)) text := h
      obtain ⟨gap, tail, rfl, hmore⟩ := hcons.exists_of_cons
      have htail := ih hmore hrest
      cases hf : f a with
      | none => exact htail.append_left _
      | some part =>
        obtain ⟨piece', hpiece, before, after, heq⟩ := ha part hf
        obtain rfl : piece = piece' := Option.some.inj (hg.symm.trans hpiece)
        have hcut : gap ++ piece ++ tail = (gap ++ before) ++ part ++ (after ++ tail) := by
          rw [← heq]
          simp only [List.append_assoc]
        rw [hcut]
        exact .cons _ part (htail.append_left after)

end InOrder

/-! ## Kept parts -/

/-- the part of an entry that stays when some keys are removed and others get a new value: all of it, or what stands
before the old value -/
def keptSpan? (removed set : String → Bool) (n : Node) : Option Span :=
  match entryKey? n with
  | none => some n.span
  | some key =>
    if removed key then none
    else if set key then
      match n with
      | .keyValue span _ value => some ⟨span.lo, value.span.lo⟩
      | _ => none
    else some n.span

/-- texts of the kept parts -/
def keptTexts (source : List Char) (removed set : String → Bool) (entries : List Node) : List (List Char) :=
  entries.filterMap fun n => (keptSpan? removed set n).map fun s => s.slice source

theorem keptTexts_cons (source : List Char) (removed set : String → Bool) (n : Node) (rest : List Node) :
    keptTexts source removed set (n :: rest) =
      ((keptSpan? removed set n).map fun s => s.slice source).toList ++ keptTexts source removed set rest := by
  unfold keptTexts
  rw [List.filterMap_cons]
  cases keptSpan? removed set n <;> rfl

/-- a kept part lies in its entry -/
theorem keptSpan?_fits {removed set : String → Bool} {n : Node} (hn : n.Fits source lo hi) {s : Span}
    (h : keptSpan? removed set n = some s) : SpanFits source n.span.lo n.span.hi s := by
  have hspan := hn.placed.fits.span
  unfold keptSpan? at h
  split at h
  · cases h
    exact hspan
  split at h
  · cases h
  split at h
  · split at h
    · cases h
      have hvalue : SpanFits source _ _ _ := hn.placed.parts
      exact ⟨Nat.le_refl _, hvalue.lo_le, hvalue.le.trans hvalue.hi_le, hspan.boundary_lo, hvalue.boundary_lo⟩
    · cases h
  · cases h
    exact hspan

/-- a patch leaves the kept part of an entry in its text -/
theorem infix_keptSpan? {n : Node} {s : Span}
    (h : keptSpan? p.removes.contains (fun key => (p.sets.lookup key).isSome) n = some s) :
    ∃ text, patchedText? source p n = some text ∧ s.slice source <:+: text := by
  unfold keptSpan? at h
  unfold patchedText?
  cases hkey : entryKey? n with
  | none =>
    rw [hkey] at h
    cases h
    exact ⟨_, rfl, List.infix_refl _⟩
  | some key =>
    rw [hkey] at h
    dsimp only at h ⊢
    split at h
    · cases h
    rename_i hkept
    rw [if_neg hkept]
    split at h
    · rename_i hset
      obtain ⟨value, hvalue⟩ := Option.isSome_iff_exists.1 hset
      rw [hvalue]
      split at h
      · cases h
        exact ⟨_, rfl, (List.prefix_append _ _).isInfix⟩
      · cases h
    · rename_i hset
      cases h
      rw [Option.not_isSome_iff_eq_none.1 hset]
      exact ⟨_, rfl, List.infix_refl _⟩

/-- the kept parts of the entries are in the object where they stand -/
theorem inOrder_keptTexts {removed set : String → Bool} {entries : List Node} (hplaced : AllPlaced source entries)
    (h : Series source lo entries hi) (hlo : Boundary source lo) (hhi : Boundary source hi) :
    InOrder (keptTexts source removed set entries) (sliceBytes lo hi source) := by
  induction entries generalizing lo with
  | nil => exact .nil _
  | cons n rest ih =>
    obtain ⟨hspan, hrest⟩ := h
    obtain ⟨hn, hplacedRest⟩ := allPlaced_cons.1 hplaced
    have hafter := ih hplacedRest hrest hspan.boundary_hi
    rw [sliceBytes_split hlo hspan.boundary_lo hhi hspan.lo_le (hspan.le.trans hspan.hi_le),
      sliceBytes_split hspan.boundary_lo hspan.boundary_hi hhi hspan.le hspan.hi_le]
    rw [keptTexts_cons]
    cases hkept : keptSpan? removed set n with
    | none => exact (hafter.append_left _).append_left _
    | some s =>
      have hs := keptSpan?_fits hn.fits hkept
      rw [sliceBytes_split hspan.boundary_lo hs.boundary_lo hspan.boundary_hi hs.lo_le (hs.le.trans hs.hi_le),
        sliceBytes_split hs.boundary_lo hs.boundary_hi hspan.boundary_hi hs.le hs.hi_le]
      have hcut := InOrder.cons (sliceBytes lo n.span.lo source ++ sliceBytes n.span.lo s.lo source) (s.slice source)
        (hafter.append_left (sliceBytes s.hi n.span.hi source))
      simp only [List.append_assoc] at hcut ⊢
      exact hcut

/-- an object that is written anew has its entries in order -/
theorem inOrder_renderObject (source : List Char) (literal : Span) (old : List Node) (entries : List (List Char))
    (indentUnit : List Char) : InOrder entries (renderObject source literal old entries indentUnit) := by
  unfold renderObject
  split
  · have hself (entry : List Char) : entry <:+: id entry := List.infix_refl entry
    have hjoined := InOrder.intercalate ", ".toList hself entries
    rw [List.map_id] at hjoined
    exact (hjoined.append_left _).append_right _
  · extract_lets closeIndent ownLine entryIndent
    have hline (entry : List Char) : entry <:+: entryIndent ++ entry ++ [','] := ⟨entryIndent, [','], rfl⟩
    have hjoined := InOrder.intercalate ['\n'] hline entries
    have hlines := hjoined.append_left "\x7b\n".toList
    exact ((hlines.append_right _).append_right _)

/-! ## Edits -/

/-- an object in the style attribute of an element that was found lies in the source, with its entries in order -/
theorem object_of_locate (hlocate : locate source point = .ok e)
    (hobject : StyleAttribute.of e = .object whole literal old) :
    Touches source e (· == "style") literal ∧ SpanFits source literal.lo literal.hi literal ∧
      AllPlaced source old ∧ Series source literal.lo old literal.hi := by
  have hattributes := (tagsPlaced_of_locate hlocate).2
  obtain ⟨found, value, hfound, hvalue, -, hcontained⟩ := exists_of_styleAttribute hobject
  have htouches : Touches source e (· == "style") literal :=
    (inValue_of_value hattributes hfound hvalue fun h => (fits_contained hcontained h).span).touches hattributes
  obtain ⟨span, name, inner, rfl, hmem, -⟩ := mem_of_lastAttribute?_eq_some hfound
  obtain rfl : inner = some value := hvalue
  have hplaced := hattributes _ hmem
  have hvaluePlaced : value.Placed source := hplaced.children _ List.mem_cons_self
  have hliteral := (fits_contained hcontained hvaluePlaced.fits).placed
  exact ⟨htouches, hliteral.fits.span, hliteral.children, hliteral.parts⟩

/-- the kept parts of an object are in a text that holds the object, as it was or under a patch -/
theorem inOrder_of_object (hlocate : locate source point = .ok e)
    (hobject : StyleAttribute.of e = .object whole literal old) (indentUnit : List Char) {text : List Char}
    (h : literal.slice source <:+: text ∨
      renderObject source literal old (patchedEntries source p old) indentUnit <:+: text) :
    InOrder (keptTexts source p.removes.contains (fun key => (p.sets.lookup key).isSome) old) text := by
  obtain ⟨-, hliteral, hplaced, hseries⟩ := object_of_locate hlocate hobject
  rcases h with h | h
  · exact (inOrder_keptTexts hplaced hseries hliteral.boundary_lo hliteral.boundary_hi).widen h
  · have hrendered := (inOrder_renderObject source literal old (patchedEntries source p old) indentUnit).widen h
    refine InOrder.filterMap hrendered fun n _ part hpart => ?_
    obtain ⟨s, hs, rfl⟩ := Option.map_eq_some_iff.1 hpart
    exact infix_keptSpan? hs

/-- a patch that leaves entries writes the object in its place, or does nothing -/
theorem planStyle_of_object (hobject : StyleAttribute.of e = .object whole literal old)
    (hentries : patchedEntries source p old ≠ []) {splice : Option Splice}
    (h : planStyle source e p indentUnit = .ok splice) :
    splice = none ∨
      splice = some ⟨literal, renderObject source literal old (patchedEntries source p old) indentUnit⟩ := by
  rw [planStyle_object hobject, if_neg hentries] at h
  rw [← Except.ok.inj h]
  split
  · exact .inl rfl
  · exact .inr rfl

/-- after the splices of an edit the object is there as it was, or as it was written anew -/
theorem infix_of_splices (hlocate : locate source point = .ok e)
    (hobject : StyleAttribute.of e = .object whole literal old) {classes style : Option Splice}
    (hclasses : ∀ s ∈ classes, Touches source e isClassAttribute s.span) {text : List Char}
    (hstyle : style = none ∨ style = some ⟨literal, text⟩) :
    literal.slice source <:+: applySplices source (classes.toList ++ style.toList) ∨
      text <:+: applySplices source (classes.toList ++ style.toList) := by
  obtain ⟨htouches, hliteral, -, -⟩ := object_of_locate hlocate hobject
  have htags := (tagsPlaced_of_locate hlocate).1
  have hapart (s : Splice) (hs : s ∈ classes) : Splice.Apart s ⟨literal, text⟩ :=
    (hclasses s hs).apart htags htouches style_ne_of_isClassAttribute
  rcases hstyle with rfl | rfl
  · left
    cases classes with
    | none => simpa using hliteral.infix_slice
    | some s =>
      have hsame := Splice.apply_sameOutside ((hclasses s rfl).fits htags)
      simpa using hsame.infix_slice hliteral (hapart s rfl).symm
  · right
    have hfits (s : Splice) (hs : s ∈ classes.toList ++ [⟨literal, text⟩]) :
        SpanFits source e.attributePlace e.opening.whole.hi s.span := by
      rcases List.mem_append.1 hs with hs | hs
      · exact (hclasses s (Option.mem_toList.1 hs)).fits htags
      · rw [List.mem_singleton.1 hs]
        exact htouches.fits htags
    have hpairs : (classes.toList ++ [(⟨literal, text⟩ : Splice)]).Pairwise Splice.Apart := by
      refine List.pairwise_append.2 ⟨pairwise_toList _, List.pairwise_singleton _ _, fun s hs t ht => ?_⟩
      rw [List.mem_singleton.1 ht]
      exact hapart s (Option.mem_toList.1 hs)
    have hmem : (⟨literal, text⟩ : Splice) ∈ classes.toList ++ [⟨literal, text⟩] := by simp
    exact infix_applySplices hfits hpairs htags.place.boundary hmem

theorem updateStyle_keeps_parts (hlocate : locate source point = .ok e)
    (hobject : StyleAttribute.of e = .object whole literal old) (update : StyleUpdate)
    (hplan : (StylePlan.of (ClassTarget.of source e) update.entries).patch = p)
    (hentries : patchedEntries source p old ≠ []) :
    InOrder (keptTexts source p.removes.contains (fun key => (p.sets.lookup key).isSome) old)
      (updateStyle indentUnit source point update).source := by
  have hattributes := (tagsPlaced_of_locate hlocate).2
  refine inOrder_of_object hlocate hobject indentUnit ?_
  rcases updateStyle_framed indentUnit source point update with hrefused | happlied
  · rw [hrefused.2.1]
    exact .inl (object_of_locate hlocate hobject).2.1.infix_slice
  · have hunderstood : StyleAttribute.of e ≠ .dynamic := by simp [hobject]
    obtain ⟨style, hstyle⟩ := exists_planStyle source p hunderstood indentUnit
    rw [updateStyle_source hlocate (hplan ▸ hstyle) happlied.1]
    refine infix_of_splices hlocate hobject (fun s hs => ?_) (planStyle_of_object hobject hentries hstyle)
    exact classSplice?_touches (classTarget_inPlace hattributes) hs

/-- a patch that sets a key and removes none leaves an entry -/
theorem patchedEntries_ne_nil (source : List Char) (key : String) (value : List Char) (old : List Node) :
    patchedEntries source ⟨[(key, value)], []⟩ old ≠ [] := by
  cases old with
  | nil => simp [patchedEntries, addedEntries]
  | cons n rest => simp [patchedEntries, patchedText?_one]

theorem moveElement_keeps_parts (hlocate : locate source point = .ok e)
    (hobject : StyleAttribute.of e = .object whole literal old) (dx dy : Binary64) :
    InOrder (keptTexts source (fun _ => false) (· == "translate") old)
      (moveElement indentUnit source point dx dy).source := by
  have hliteral := (object_of_locate hlocate hobject).2.1
  have hnames (value : List Char) :
      (fun key => (([("translate", value)] : List (String × List Char)).lookup key).isSome) = (· == "translate") := by
    funext key
    cases h : key == "translate" <;> simp [List.lookup_cons, h]
  have hkept (value : List Char) {text : List Char} (h : literal.slice source <:+: text ∨
      renderObject source literal old (patchedEntries source ⟨[("translate", value)], []⟩ old) indentUnit <:+: text) :
      InOrder (keptTexts source (fun _ => false) (· == "translate") old) text := by
    have h := inOrder_of_object hlocate hobject indentUnit h
    rw [hnames] at h
    exact h
  obtain ⟨reason, hrefused⟩ | ⟨e', x, y, splice, hlocate', -, hstyle, happlied⟩ :=
    moveElement_cases indentUnit source point dx dy
  · rw [hrefused]
    exact hkept [] (.inl hliteral.infix_slice)
  · obtain rfl : e' = e := Except.ok.inj (hlocate'.symm.trans hlocate)
    have hsplice := planStyle_of_object hobject (patchedEntries_ne_nil source "translate" _ old) hstyle
    have hclasses : ∀ s ∈ (none : Option Splice), Touches source e' isClassAttribute s.span := by simp
    rw [happlied]
    exact hkept _ (infix_of_splices hlocate hobject hclasses hsplice)

/-- **Kept parts survive.** After a style update that leaves entries in the object, and after any move, the entries that
the edit does not name are in the source as they stood, methods with the words before their keys, and so is what stood
before each value that was replaced: all of it in the order of the object, with the comments inside these parts. -/
theorem style_edits_keep_parts (hlocate : locate source point = .ok e)
    (hobject : StyleAttribute.of e = .object whole literal old) :
    (∀ update p, (StylePlan.of (ClassTarget.of source e) update.entries).patch = p →
      patchedEntries source p old ≠ [] →
      InOrder (keptTexts source p.removes.contains (fun key => (p.sets.lookup key).isSome) old)
        (updateStyle indentUnit source point update).source) ∧
    ∀ dx dy, InOrder (keptTexts source (fun _ => false) (· == "translate") old)
      (moveElement indentUnit source point dx dy).source :=
  ⟨fun update _ hplan hentries => updateStyle_keeps_parts hlocate hobject update hplan hentries,
    moveElement_keeps_parts hlocate hobject⟩

/-- a style with comments inside of two entries, one of which holds the displacement -/
def commentsInEntries : List Char :=
  "const a = <div style=\x7b\x7b top: /* a */ 9, color: \"red\", translate: /* b */ \"1px\" \x7d\x7d>x</div>;".toList

/-- an update that takes the colour out -/
def uncoloured : StyleUpdate := [(.textColor, .clear)]

/-- the object of an element, with what an update that takes the colour out and a move keep of it -/
def keepsComments (e : Element) : Bool :=
  let p := (StylePlan.of (ClassTarget.of commentsInEntries e) uncoloured.entries).patch
  match StyleAttribute.of e with
  | .object _ _ old =>
    patchedEntries commentsInEntries p old != [] &&
      keptTexts commentsInEntries p.removes.contains (fun key => (p.sets.lookup key).isSome) old ==
        ["top: /* a */ 9".toList, "translate: /* b */ \"1px\"".toList] &&
      keptTexts commentsInEntries (fun _ => false) (· == "translate") old ==
        ["top: /* a */ 9".toList, "color: \"red\"".toList, "translate: /* b */ ".toList]
  | _ => false

theorem style_edits_keep_parts_commentsInEntries :
    InOrder ["top: /* a */ 9".toList, "translate: /* b */ \"1px\"".toList]
      (updateStyle [] commentsInEntries ⟨1, 12⟩ uncoloured).source ∧
    InOrder ["top: /* a */ 9".toList, "color: \"red\"".toList, "translate: /* b */ ".toList]
      (moveElement [] commentsInEntries ⟨1, 12⟩ (.ofNat 2) (.ofNat 3)).source := by
  have hany : (locate commentsInEntries ⟨1, 12⟩).toOption.any keepsComments = true := by decide +kernel
  obtain ⟨e, hlocate, hkeeps⟩ := exists_of_toOption_any hany
  unfold keepsComments at hkeeps
  dsimp only at hkeeps
  split at hkeeps
  · rename_i whole literal old hobject
    simp only [Bool.and_eq_true, bne_iff_ne, beq_iff_eq] at hkeeps
    obtain ⟨⟨hentries, hupdated⟩, hmoved⟩ := hkeeps
    rw [← hupdated, ← hmoved]
    exact ⟨(style_edits_keep_parts hlocate hobject).1 uncoloured _ rfl hentries,
      (style_edits_keep_parts hlocate hobject).2 (.ofNat 2) (.ofNat 3)⟩
  · cases hkeeps

/-- a comment in the form that may stand between any two tokens -/
def IsComment (text : List Char) : Prop := ∃ body, text = "/*".toList ++ body ++ "*/".toList

/-- a style with a comment between its entries -/
def commentBetweenEntries : List Char :=
  "const a = <div style=\x7b\x7b color: \"red\", /* spacing */ margin: 4 \x7d\x7d>x</div>;".toList

/-- the range of the comment -/
def spacing : Span := ⟨38, 51⟩

/-- an object around the comment, with entries on either side, that keeps an entry without its colour -/
def holdsSpacing (e : Element) : Bool :=
  let p := (StylePlan.of (ClassTarget.of commentBetweenEntries e) uncoloured.entries).patch
  match StyleAttribute.of e with
  | .object _ literal old =>
    patchedEntries commentBetweenEntries p old != [] && decide (literal.lo ≤ spacing.lo ∧ spacing.hi ≤ literal.hi) &&
      old.all fun n => decide (spacing.hi ≤ n.span.lo ∨ n.span.hi ≤ spacing.lo)
  | _ => false

/-- **A comment between two entries is lost.** The object is joined from the texts of its entries, and a comment that
belongs to none of them is not among these. -/
theorem comment_between_entries_lost : ¬∀ (indentUnit source : List Char) (point : Position) (update : StyleUpdate)
    (e : Element) (whole literal : Span) (old : List Node), locate source point = .ok e →
      StyleAttribute.of e = .object whole literal old →
      patchedEntries source (StylePlan.of (ClassTarget.of source e) update.entries).patch old ≠ [] →
      ∀ s : Span, SpanFits source literal.lo literal.hi s → (∀ n ∈ old, s.hi ≤ n.span.lo ∨ n.span.hi ≤ s.lo) →
        IsComment (s.slice source) → s.slice source <:+: (updateStyle indentUnit source point update).source := by
  intro h
  have hany : (locate commentBetweenEntries ⟨1, 12⟩).toOption.any holdsSpacing = true := by decide +kernel
  obtain ⟨e, hlocate, hholds⟩ := exists_of_toOption_any hany
  unfold holdsSpacing at hholds
  dsimp only at hholds
  split at hholds
  · rename_i whole literal old hobject
    simp only [Bool.and_eq_true, bne_iff_ne, decide_eq_true_eq, List.all_eq_true] at hholds
    obtain ⟨⟨hentries, hlo, hhi⟩, hbetween⟩ := hholds
    have hstart : Boundary commentBetweenEntries spacing.lo :=
      ⟨"const a = <div style=\x7b\x7b color: \"red\", ".toList, "/* spacing */ margin: 4 \x7d\x7d>x</div>;".toList,
        by decide +kernel, by decide +kernel⟩
    have hstop : Boundary commentBetweenEntries spacing.hi :=
      ⟨"const a = <div style=\x7b\x7b color: \"red\", /* spacing */".toList, " margin: 4 \x7d\x7d>x</div>;".toList,
        by decide +kernel, by decide +kernel⟩
    have hcomment : IsComment (spacing.slice commentBetweenEntries) := ⟨" spacing ".toList, by decide +kernel⟩
    have hlost : ¬spacing.slice commentBetweenEntries <:+:
        (updateStyle [] commentBetweenEntries ⟨1, 12⟩ uncoloured).source := by decide +kernel
    exact hlost (h [] commentBetweenEntries ⟨1, 12⟩ uncoloured e whole literal old hlocate hobject hentries spacing
      ⟨hlo, by decide, hhi, hstart, hstop⟩ hbetween hcomment)
  · cases hholds

end TsxWorkbench.Edit
