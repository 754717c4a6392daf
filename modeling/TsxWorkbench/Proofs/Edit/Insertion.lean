/-
What an insertion of a child does to the source. In each layout of the tags the child's text goes between the end of the
opening tag and the start of the closing one, in the place of blanks at most, and the reported position is that of its
first character in the new source.

- `exists_reindent`: a child starts with its indentation and then its first character.
- `planInsertion_places`, `exists_insertion`: the splice of a planned insertion, and the position it reports.
- `insertChild_placed`: an insertion is refused, with the source as it was, or adds the child.
-/
import TsxWorkbench.Proofs.Edit.Frame
import TsxWorkbench.Proofs.Text.Lines
import TsxWorkbench.Proofs.Text.Position
import TsxWorkbench.Edit.Insert

namespace TsxWorkbench.Edit

open Text Syntax

variable {source child indentUnit : List Char} {point : Position} {e : Element}

/-! ## The text of a child -/

theorem head?_dropReturn {c : Char} (hc : isBlank c = false) (cs : List Char) :
    (dropReturn (c :: cs)).head? = some c := by
  unfold dropReturn
  split
  · rename_i rest hreverse
    have hline : c :: cs = rest.reverse ++ ['\r'] := by rw [← List.reverse_reverse (c :: cs), hreverse]; simp
    cases hrest : rest.reverse with
    | nil =>
      obtain rfl : c = '\r' := by rw [hrest] at hline; simpa using (List.cons.inj hline).1
      exact absurd hc (by decide)
    | cons d ds =>
      rw [hrest] at hline
      simpa using (List.cons.inj hline).1.symm
  · rfl

/-- the first line of a text starts with the first character of the text -/
theorem exists_textLines {c : Char} (hc : isBlank c = false) (cs : List Char) :
    ∃ first rest, textLines (c :: cs) = first :: rest ∧ first.head? = some c := by
  have hline : c ≠ '\n' := by rintro rfl; exact absurd hc (by decide)
  obtain ⟨line, rest, hsplit⟩ := exists_splitLines_eq_cons cs
  rw [textLines, splitLines_cons_of_ne hline hsplit]
  cases rest with
  | nil => exact ⟨c :: line, [], rfl, rfl⟩
  | cons next rest => exact ⟨_, _, rfl, head?_dropReturn hc line⟩

/-- a child under a new indentation starts with it, and goes on with its first character -/
theorem exists_reindent (h : trim child ≠ []) (indent : List Char) :
    ∃ c rest, reindent child indent = indent ++ c :: rest ∧ (trim child).head? = some c := by
  obtain ⟨c, cs, hchild⟩ := List.exists_cons_of_ne_nil h
  obtain ⟨first, rest, hlines, hhead⟩ := exists_textLines (isBlank_head_trim hchild) cs
  obtain ⟨more, rfl⟩ : ∃ more, first = c :: more := List.head?_eq_some_iff.1 hhead
  have hblank : isBlankLine (c :: more) = false := by
    simpa [isBlankLine] using trim_cons_ne_nil (isBlank_head_trim hchild) more
  have hstart (rest : List (List Char)) :
      ∃ tail, joinLines ((indent ++ c :: more) :: rest) = indent ++ c :: (more ++ tail) := by
    cases rest with
    | nil => exact ⟨[], by simp [joinLines]⟩
    | cons next rest => exact ⟨'\n' :: joinLines (next :: rest), by rw [joinLines_cons (by simp)]; simp⟩
  obtain ⟨tail, htail⟩ := hstart _
  refine ⟨c, more ++ tail, ?_, by rw [hchild]; rfl⟩
  unfold reindent
  rw [hchild, hlines]
  dsimp only
  rw [hblank]
  exact htail

/-! ## The place of a child -/

/-- the pieces of a source and of the source with a child in it: the text before the child, blanks that give way, the
text after them, the blanks before the child's first character, and the child from there on -/
structure ChildPieces where
  pre : List Char
  gap : List Char
  post : List Char
  before : List Char
  shown : List Char

/-- a text is a source with a child in it, between the tags of an element, whose first character is at a position -/
structure ChildInserted (source child : List Char) (opening closing : Span) (p : ChildPieces) (result : List Char)
    (place : Position) : Prop where
  source_eq : source = p.pre ++ (p.gap ++ p.post)
  result_eq : result = p.pre ++ p.before ++ (p.shown ++ p.post)
  opening_le : opening.hi ≤ byteLen p.pre
  le_closing : byteLen (p.pre ++ p.gap) ≤ closing.lo
  blank_gap : ∀ c ∈ p.gap, isBlank c = true
  blank_before : ∀ c ∈ p.before, isBlank c = true
  child_ne_nil : trim child ≠ []
  shown_head : p.shown.head? = (trim child).head?
  place_eq : place = position result (byteLen (p.pre ++ p.before))

/-- spaces and tabs are blank, and end no line -/
theorem indent_blank {indent : List Char} (h : ∀ c ∈ indent, c = ' ' ∨ c = '\t') :
    (∀ c ∈ indent, isBlank c = true) ∧ '\n' ∉ indent := by
  refine ⟨fun c hc => ?_, fun hc => ?_⟩
  · rcases h c hc with rfl | rfl <;> decide
  · exact absurd (h _ hc) (by decide)

variable {opening closing : Span} {childIndent : List Char}

/-- a child on a line of its own, after a place between the tags and in the place of blanks -/
theorem inserted_on_own_lines {pre gap post : List Char} (indent : List Char) (hsource : source = pre ++ (gap ++ post))
    (hopening : opening.hi ≤ byteLen pre) (hclosing : byteLen (pre ++ gap) ≤ closing.lo)
    (hgap : ∀ c ∈ gap, isBlank c = true) (hchild : trim child ≠ []) (hindent : ∀ c ∈ childIndent, c = ' ' ∨ c = '\t') :
    ∃ p, ChildInserted source child opening closing p
      (applySplices source [⟨⟨byteLen pre, byteLen (pre ++ gap)⟩,
        '\n' :: reindent child childIndent ++ '\n' :: indent⟩])
      ⟨(position source (byteLen pre)).line + 1, childIndent.length + 1⟩ := by
  obtain ⟨hblank, hline⟩ := indent_blank hindent
  obtain ⟨c, rest, hreindent, hhead⟩ := exists_reindent hchild childIndent
  refine ⟨⟨pre, gap, post, '\n' :: childIndent, c :: rest ++ '\n' :: indent⟩, ?_⟩
  have hresult : applySplices source [⟨⟨byteLen pre, byteLen (pre ++ gap)⟩,
      '\n' :: reindent child childIndent ++ '\n' :: indent⟩] =
      pre ++ '\n' :: childIndent ++ (c :: rest ++ '\n' :: indent ++ post) := by
    rw [applySplices_singleton, hsource, Splice.apply_append rfl rfl, hreindent]
    simp
  refine ⟨hsource, hresult, hopening, hclosing, hgap, ?_, hchild, hhead.symm, ?_⟩
  · exact List.forall_mem_cons.2 ⟨by decide, hblank⟩
  · rw [hresult, position_append, advancePosition_append, advancePosition_newline hline, hsource, position_append]

/-- a child on a line of its own, before the line of the closing tag -/
theorem inserted_before_line {front line post : List Char} (hsource : source = front ++ '\n' :: (line ++ post))
    (hline : '\n' ∉ line) (hopening : opening.hi ≤ byteLen (front ++ ['\n']))
    (hclosing : byteLen (front ++ '\n' :: line) = closing.lo) (hchild : trim child ≠ [])
    (hindent : ∀ c ∈ childIndent, c = ' ' ∨ c = '\t') :
    ∃ p, ChildInserted source child opening closing p
      (applySplices source [.insertAt (closing.lo - byteLen line) (reindent child childIndent ++ ['\n'])])
      ⟨(position source closing.lo).line, childIndent.length + 1⟩ := by
  obtain ⟨hblank, hnewline⟩ := indent_blank hindent
  obtain ⟨c, rest, hreindent, hhead⟩ := exists_reindent hchild childIndent
  have hsource : source = front ++ ['\n'] ++ ([] ++ (line ++ post)) := by simp [hsource]
  have hlen : byteLen (front ++ '\n' :: line) = byteLen (front ++ ['\n']) + byteLen line := by
    simp [Nat.add_assoc]
  have hplace : closing.lo - byteLen line = byteLen (front ++ ['\n']) := by omega
  refine ⟨⟨front ++ ['\n'], [], line ++ post, childIndent, c :: rest ++ ['\n']⟩, ?_⟩
  have hresult : applySplices source [.insertAt (closing.lo - byteLen line) (reindent child childIndent ++ ['\n'])] =
      front ++ ['\n'] ++ childIndent ++ (c :: rest ++ ['\n'] ++ (line ++ post)) := by
    rw [applySplices_singleton, hplace, hsource, Splice.apply_append rfl (by simp [Splice.insertAt]), hreindent]
    simp [Splice.insertAt]
  have hclosed : position source closing.lo = advancePosition (advancePosition ⟨1, 1⟩ front) ('\n' :: line) := by
    rw [hsource, ← hclosing, show front ++ ['\n'] ++ ([] ++ (line ++ post)) = front ++ '\n' :: line ++ post by simp,
      position_append, advancePosition_append]
  refine ⟨hsource, hresult, hopening, ?_, by simp, hblank, hchild, hhead.symm, ?_⟩
  · show byteLen (front ++ ['\n'] ++ []) ≤ closing.lo
    rw [List.append_nil]
    omega
  · rw [hresult, position_append, hclosed, advancePosition_newline hline, List.append_assoc, advancePosition_append]
    exact (advancePosition_newline hnewline _).symm

/-! ## Insertions -/

/-- the text before a place that stands in one line with it -/
theorem lineBefore_eq (pre : List Char) {line : List Char} (hline : '\n' ∉ line) (post : List Char) :
    lineBefore (pre ++ '\n' :: line ++ post) (byteLen (pre ++ '\n' :: line)) = line := by
  have hpos : ∀ c ∈ line.reverse, decide (c ≠ '\n') = true := fun c hc => by
    rw [decide_eq_true_eq]
    rintro rfl
    exact hline (List.mem_reverse.1 hc)
  rw [lineBefore, takeBytes_append, List.reverse_append, List.reverse_cons, List.append_assoc,
    List.takeWhile_append_of_pos hpos]
  simp

/-- tags on different lines: the closing tag stands on a line that starts between them -/
theorem exists_closingLine {pre between post : List Char} (hsource : source = pre ++ (between ++ post))
    (hnewline : '\n' ∈ between) (hopening : opening.hi ≤ byteLen pre)
    (hclosing : byteLen (pre ++ between) = closing.lo) : ∃ front line, source = front ++ '\n' :: (line ++ post) ∧
      '\n' ∉ line ∧ opening.hi ≤ byteLen (front ++ ['\n']) ∧ byteLen (front ++ '\n' :: line) = closing.lo ∧
      lineBefore source closing.lo = line := by
  obtain ⟨front, line, rfl, hline⟩ := exists_last_newline hnewline
  have hend : byteLen (pre ++ front ++ '\n' :: line) = closing.lo := by rw [List.append_assoc, hclosing]
  have hlast := lineBefore_eq (pre ++ front) hline post
  rw [hend, show pre ++ front ++ '\n' :: line ++ post = source by simp [hsource]] at hlast
  refine ⟨pre ++ front, line, by simp [hsource], hline, ?_, hend, hlast⟩
  rw [List.append_assoc, byteLen_append]
  omega

theorem closing_of_closingTag (h : closingTag e = .ok closing) : e.closing = some closing := by
  unfold closingTag at h
  extract_lets tag plainIn at h
  split at h
  · cases h
  split at h
  · cases h
  split at h
  · cases h
  · cases h
    assumption

/-- insertions of a child with an indentation: lines of its own between tags with only blanks between them, a line before
that of the closing tag, or lines of its own before the closing tag -/
inductive PlacesChild (source child indent childIndent : List Char) (opening closing : Span) : Insertion → Prop where
  | betweenTags (hblank : ∀ c ∈ sliceBytes opening.hi closing.lo source, isBlank c = true) :
    PlacesChild source child indent childIndent opening closing
      ⟨⟨⟨opening.hi, closing.lo⟩, '\n' :: reindent child childIndent ++ '\n' :: indent⟩,
        ⟨(position source opening.hi).line + 1, childIndent.length + 1⟩⟩
  | beforeLine (hnewline : '\n' ∈ sliceBytes opening.hi closing.lo source) :
    PlacesChild source child indent childIndent opening closing
      ⟨.insertAt (closing.lo - byteLen (lineBefore source closing.lo)) (reindent child childIndent ++ ['\n']),
        ⟨(position source closing.lo).line, childIndent.length + 1⟩⟩
  | beforeTag (hnewline : '\n' ∈ sliceBytes opening.hi closing.lo source) :
    PlacesChild source child indent childIndent opening closing
      ⟨.insertAt closing.lo ('\n' :: reindent child childIndent ++ '\n' :: indent),
        ⟨(position source closing.lo).line + 1, childIndent.length + 1⟩⟩

/-- what is planned is one of these insertions -/
theorem planInsertion_places {insertion : Insertion} (h : planInsertion source e child indentUnit = .ok insertion) :
    ∃ closing, e.closing = some closing ∧ trim child ≠ [] ∧
      PlacesChild source child (indentationAt source e.opening.whole.lo)
        (indentationAt source e.opening.whole.lo ++ indentUnit) e.opening.whole closing insertion := by
  unfold planInsertion at h
  cases hclosing : closingTag e with
  | error reason =>
    rw [hclosing] at h
    cases h
  | ok closing =>
    rw [hclosing] at h
    dsimp only [bind, Except.bind] at h
    split at h
    · cases h
    rename_i hchild
    refine ⟨closing, closing_of_closingTag hclosing, by simpa using hchild, ?_⟩
    split at h
    · cases h
    split at h
    · split at h
      · cases h
      rename_i hblank
      cases h
      exact .betweenTags (isBlank_of_trim_eq_nil (by simpa [isBlankLine] using hblank))
    rename_i hnewline
    have hnewline : '\n' ∈ sliceBytes e.opening.whole.hi closing.lo source := by simpa using hnewline
    split at h
    · cases h
      exact .beforeLine hnewline
    · cases h
      exact .beforeTag hnewline

/-- a planned insertion puts the child between the tags -/
theorem exists_insertion (hunit : ∀ c ∈ indentUnit, c = ' ' ∨ c = '\t')
    (htags : TagsPlaced source e.opening e.closing e.attributes) {insertion : Insertion}
    (h : planInsertion source e child indentUnit = .ok insertion) : ∃ closing p, e.closing = some closing ∧
      ChildInserted source child e.opening.whole closing p (applySplices source [insertion.splice])
        insertion.place := by
  have hindent : ∀ c ∈ indentationAt source e.opening.whole.lo ++ indentUnit, c = ' ' ∨ c = '\t' := by
    intro c hc
    rcases List.mem_append.1 hc with hc | hc
    · simpa using List.mem_takeWhile_imp hc
    · exact hunit c hc
  obtain ⟨closing, hsome, hchild, hplaces⟩ := planInsertion_places h
  obtain ⟨hle, hboundary⟩ := htags.closing closing hsome
  obtain ⟨pre, between, post, hsource, hpre, hend⟩ := htags.stop.split hboundary hle
  have hbetween : sliceBytes e.opening.whole.hi closing.lo source = between := by
    rw [hsource, ← hpre, ← hend, sliceBytes_append]
  cases hplaces with
  | betweenTags hblank =>
    obtain ⟨p, hp⟩ := inserted_on_own_lines (indentationAt source e.opening.whole.lo) hsource hpre.ge hend.le
      (hbetween ▸ hblank) hchild hindent
    rw [hpre, hend] at hp
    exact ⟨closing, p, hsome, hp⟩
  | beforeLine hnewline =>
    obtain ⟨front, line, hsource, hline, hopening, hend, hbefore⟩ :=
      exists_closingLine hsource (hbetween ▸ hnewline) hpre.ge hend
    obtain ⟨p, hp⟩ := inserted_before_line hsource hline hopening hend hchild hindent
    rw [hbefore]
    exact ⟨closing, p, hsome, hp⟩
  | beforeTag hnewline =>
    have hall : source = pre ++ between ++ ([] ++ post) := by simp [hsource]
    have hopening : e.opening.whole.hi ≤ byteLen (pre ++ between) := by rw [hend]; exact hle
    have hclosed : byteLen (pre ++ between ++ []) ≤ closing.lo := by rw [List.append_nil, hend]
    obtain ⟨p, hp⟩ := inserted_on_own_lines (indentationAt source e.opening.whole.lo) hall hopening hclosed (by simp)
      hchild hindent
    rw [List.append_nil, hend] at hp
    exact ⟨closing, p, hsome, hp⟩

/-- **A child goes where it is said to be.** For an indentation unit of spaces and tabs, an insertion is refused with a
reason and the source as it was, or the child stands between the tags of the innermost element around the point, in the
place of blanks at most, and the reported position is that of its first character in the new source. -/
theorem insertChild_placed (indentUnit source : List Char) (point : Position) (child : List Char)
    (hunit : ∀ c ∈ indentUnit, c = ' ' ∨ c = '\t') :
    Refused source (insertChild indentUnit source point child) ∨
      ((insertChild indentUnit source point child).changed = true ∧
        (insertChild indentUnit source point child).refusal = none ∧
        ∃ e closing pieces place, locate source point = .ok e ∧ e.closing = some closing ∧
          (insertChild indentUnit source point child).insertedAt = some place ∧
          ChildInserted source child e.opening.whole closing pieces (insertChild indentUnit source point child).source
            place) := by
  unfold insertChild
  split
  · exact .inl refused_refused
  rename_i e he
  split
  · exact .inl refused_refused
  rename_i insertion hinsertion
  obtain ⟨closing, pieces, hclosing, hinserted⟩ := exists_insertion hunit (tagsPlaced_of_locate he).1 hinsertion
  exact .inr ⟨rfl, rfl, e, closing, pieces, insertion.place, he, hclosing, rfl, hinserted⟩

/-- the text of an element without children -/
def emptyElement : List Char := "<a></a>".toList

/-- an insertion by two spaces between the tags of an element on one line is not refused -/
theorem insertChild_placed_emptyElement : (∀ c ∈ [' ', ' '], c = ' ' ∨ c = '\t') ∧
    ∃ e closing pieces place, locate emptyElement ⟨1, 1⟩ = .ok e ∧ e.closing = some closing ∧
      (insertChild [' ', ' '] emptyElement ⟨1, 1⟩ ['x']).insertedAt = some place ∧
      ChildInserted emptyElement ['x'] e.opening.whole closing pieces
        (insertChild [' ', ' '] emptyElement ⟨1, 1⟩ ['x']).source place := by
  have hunit : ∀ c ∈ [' ', ' '], c = ' ' ∨ c = '\t' := by simp
  have hchanged : (insertChild [' ', ' '] emptyElement ⟨1, 1⟩ ['x']).changed = true := by decide +kernel
  rcases insertChild_placed [' ', ' '] emptyElement ⟨1, 1⟩ ['x'] hunit with hrefused | hinserted
  · exact absurd (hrefused.1.symm.trans hchanged) Bool.false_ne_true
  · exact ⟨hunit, hinserted.2.2⟩

end TsxWorkbench.Edit
