/-
Values read back where they were written. `Finds` says what a reader finds in a written text, whatever comes after it;
the reader is run step by step on the tokens of the text, which are known.

- `finds_string`: a string literal is read as its text.
- `finds_quoted`: between the quotes of an attribute a text is read with its references decoded.
- `finds_braced`: a string literal in braces is read as its text.
- `finds_className`: with the name of the class attribute before it, such a value is read as that attribute.
-/
import TsxWorkbench.Proofs.Syntax.Literal
import TsxWorkbench.Syntax.Parser

namespace TsxWorkbench.Syntax

open Text

variable {α β : Type} {r : Goal → Parse Node} {s : Reading} {v : List Char} {text : String}

/-! ## Runs -/

/-- the state in which the token at the start of a tail is the current one -/
def Reading.before (u : Tail) (previous : Span) (limit : Nat) : Reading :=
  ⟨(scan u).head, (scan u).token, (scan u).tail, previous, limit⟩

/-- the state after the current token was read -/
def Reading.next (s : Reading) : Reading := .before s.tail s.token.span s.limit

/-- the state after reading went on at a tail -/
def Reading.resumed (s : Reading) (u : Tail) : Reading := .before u ⟨s.token.span.lo, u.offset⟩ s.limit

section Runs

variable (s : Reading)

@[simp] theorem run_bind (p : Parse α) (f : α → Parse β) : (p >>= f) s = p s >>= fun x => f x.1 x.2 := rfl

@[simp] theorem run_map (p : Parse α) (f : α → β) : (f <$> p) s = p s >>= fun x => .ok (f x.1, x.2) := rfl

@[simp] theorem ok_bind {ε : Type} (a : α) (f : α → Except ε β) : (Except.ok a >>= f) = f a := rfl

@[simp] theorem run_pure (a : α) : (pure a : Parse α) s = .ok (a, s) := rfl

@[simp] theorem run_get : (get : Parse Reading) s = .ok (s, s) := rfl

@[simp] theorem run_ite (c : Prop) [Decidable c] (p q : Parse α) : (if c then p else q) s = if c then p s else q s := by
  split <;> rfl

@[simp] theorem run_advance : advance s = .ok ((), s.next) := rfl

@[simp] theorem run_resume (u : Tail) : resume u s = .ok ((), s.resumed u) := rfl

@[simp] theorem run_currentToken : currentToken s = .ok (s.token, s) := rfl

@[simp] theorem run_nextToken : nextToken s = .ok (s.next.token, s) := rfl

@[simp] theorem run_here : here s = .ok (s.token.span.lo, s) := rfl

@[simp] theorem run_since (lo : Nat) : since lo s = .ok (⟨lo, s.previous.hi⟩, s) := rfl

@[simp] theorem run_isMark (text : String) : isMark text s = .ok (s.token.isMark text, s) := rfl

@[simp] theorem run_isWord (text : String) : isWord text s = .ok (s.token.isWord text, s) := rfl

@[simp] theorem run_takeMark (text : String) :
    takeMark text s = if s.token.isMark text then .ok (true, s.next) else .ok (false, s) := by
  unfold takeMark
  cases h : s.token.isMark text <;> simp [h]

theorem run_expectMark {s : Reading} {text : String} (h : s.token.lexeme = .mark text) :
    expectMark text s = .ok ((), s.next) := by
  simp [expectMark, Token.isMark, h]

theorem run_containerEnd {s : Reading} (h : s.token.lexeme = .mark "\x7d") (lo : Nat) :
    containerEnd lo s = .ok (⟨lo, s.token.span.hi⟩, s) := by
  simp [containerEnd, Token.isMark, h]

/-- the next token, where it is known -/
theorem next_over {s : Reading} {found : Lexeme} {text rest : List Char} {offset : Nat}
    (h : scan s.tail = .over found text rest offset) :
    s.next.token.lexeme = found ∧ s.next.tail = ⟨rest, offset + byteLen text⟩ := by
  simp [Reading.next, Reading.before, h, Step.over]

end Runs

theorem extend_stop {p : α → Parse (Option α)} {a : α} (hlimit : 0 < s.limit) (h : p a s = .ok (none, s)) :
    extend p a s = .ok (a, s) := by
  obtain ⟨k, hk⟩ := Nat.exists_eq_succ_of_ne_zero (Nat.pos_iff_ne_zero.1 hlimit)
  simp [extend, hk, extendAtMost, h]

theorem many_nothing {p : Parse (Option α)} (hlimit : 0 < s.limit) (h : p s = .ok (none, s)) :
    many p s = .ok ([], s) := by
  obtain ⟨k, hk⟩ := Nat.exists_eq_succ_of_ne_zero (Nat.pos_iff_ne_zero.1 hlimit)
  simp [many, hk, repeatAtMost, h]

/-! ## Strings in expressions -/

theorem primary_string (h : s.token.lexeme = .string text) : primary r s = .ok (.strLit s.token.span text, s.next) := by
  simp [primary, primaryWith, h]

/-- the current token is a string, before the brace that closes a container -/
structure ClosedString (text : String) (s : Reading) : Prop where
  string : s.token.lexeme = .string text
  brace : s.next.token.lexeme = .mark "\x7d"
  limit : 0 < s.limit

namespace ClosedString

theorem accessChain (h : ClosedString text s) : accessChain r s = .ok (.strLit s.token.span text, s.next) := by
  have hlink : link? r s.token.span.lo ⟨.strLit s.token.span text, false⟩ s.next = .ok (none, s.next) := by
    simp [link?, h.brace]
  have hstop := extend_stop (show 0 < s.next.limit from h.limit) hlink
  simp [Syntax.accessChain, Token.isWord, h.string, primary_string h.string, hstop]

theorem unary (h : ClosedString text s) : unary r s = .ok (.strLit s.token.span text, s.next) := by
  simp [Syntax.unary, h.string, h.accessChain, Token.isMark, h.brace]

variable (hr : r .unary s = .ok (.strLit s.token.span text, s.next))

include hr in
theorem binary (h : ClosedString text s) (above : Nat) (allowIn : Bool) :
    binary r above allowIn s = .ok (.strLit s.token.span text, s.next) := by
  have hlevel : operatorLevel? "\x7d" = none := by decide
  simp only [Syntax.binary, run_bind, run_here, hr, ok_bind]
  exact extend_stop (show 0 < s.next.limit from h.limit) (by simp [currentOperator?, h.brace, hlevel])

include hr in
theorem assignment (h : ClosedString text s) (allowIn beforeColon : Bool) :
    assignment r allowIn beforeColon s = .ok (.strLit s.token.span text, s.next) := by
  have hmarks : "\x7d" ∉ assignmentMarks := by decide
  simp [Syntax.assignment, Token.isMark, Token.isWord, h.string, asyncArrow?, bareArrow?, Token.identifier?,
    plainAssignment, h.binary hr, h.brace, hmarks]

theorem expression (h : ClosedString text s) (hassignment : r (.assignment true false) s =
    .ok (.strLit s.token.span text, s.next)) : expression r true s = .ok (.strLit s.token.span text, s.next) := by
  have hcomma : afterMark "," (r (.assignment true false)) s.next = .ok (none, s.next) := by
    simp [afterMark, given, Token.isMark, h.brace]
  have hmany := many_nothing (show 0 < s.next.limit from h.limit) hcomma
  simp [Syntax.expression, hassignment, hmany]

/-- three levels down, the reader of expressions finds the string -/
theorem readGoal_expression (h : ClosedString text s) (depth : Nat) :
    readGoal (depth + 3) (.expression true) s = .ok (.strLit s.token.span text, s.next) := by
  have hunary : readGoal (depth + 1) .unary s = .ok (.strLit s.token.span text, s.next) := h.unary
  have hassignment : readGoal (depth + 2) (.assignment true false) s = .ok (.strLit s.token.span text, s.next) :=
    h.assignment hunary true false
  exact h.expression hassignment

end ClosedString

/-! ## Written texts -/

/-- reading is at a place of a text -/
structure Stands (u : Tail) (s : Reading) : Prop where
  step : (⟨s.head, s.token, s.tail⟩ : Step) = scan u
  limit : 0 < s.limit

/-- reading is at the token before a place of a text -/
structure Precedes (u : Tail) (s : Reading) : Prop where
  tail : s.tail = u
  limit : 0 < s.limit

/-- what a reader finds in a written text, whatever comes after it, before it goes on behind the text -/
def Finds (starts : Tail → Reading → Prop) (p : Parse α) (text : List Char) (P : α → Prop) : Prop :=
  ∀ rest offset s, starts ⟨text ++ rest, offset⟩ s →
    ∃ a t, p s = .ok (a, t) ∧ P a ∧ Stands ⟨rest, offset + byteLen text⟩ t

theorem Precedes.next {u : Tail} (h : Precedes u s) : Stands u s.next := ⟨h.tail ▸ rfl, h.limit⟩

theorem Finds.mono {starts : Tail → Reading → Prop} {p : Parse α} {text : List Char} {P Q : α → Prop}
    (h : Finds starts p text P) (k : ∀ a, P a → Q a) : Finds starts p text Q := by
  intro rest offset s hs
  obtain ⟨a, t, hrun, ha, ht⟩ := h rest offset s hs
  exact ⟨a, t, hrun, k a ha, ht⟩

/-- **Quoted strings.** A string literal is read as the text that was escaped in it. -/
theorem finds_string (r : Goal → Parse Node) (v : List Char) :
    Finds Stands (primary r) (Json.quote v) fun n => ∃ span, n = .strLit span (String.ofList v) := by
  intro rest offset s hs
  obtain ⟨-, htoken, htail⟩ := Step.mk.inj (hs.step.trans (scan_quote v rest offset))
  have hstring : s.token.lexeme = .string (String.ofList v) := by rw [htoken]
  exact ⟨_, _, primary_string hstring, ⟨_, rfl⟩, Precedes.next ⟨htail, hs.limit⟩⟩

/-- **Values in quotes.** A text between quotes that do not occur in it is read with its references decoded. -/
theorem finds_quoted (r : Goal → Parse Node) {quote : Char} (hquote : quote = '\x22' ∨ quote = '\x27')
    (hv : quote ∉ v) : Finds Precedes (attributeValue r) (quote :: v ++ [quote]) fun n =>
      ∃ span, n = .strLit span (String.ofList (decodeEntities v)) := by
  intro rest offset s hs
  have hgap : isGap quote = false := by rcases hquote with rfl | rfl <;> decide
  have hslash : quote ≠ '/' := by rcases hquote with rfl | rfl <;> decide
  have hless : quote ≠ '<' := by rcases hquote with rfl | rfl <;> decide
  have hbody : (v ++ quote :: rest).takeWhile (fun c => !decide (c = quote)) = v := by
    rw [List.takeWhile_append_of_pos fun c hc => by simpa using ne_of_mem_of_not_mem hc hv]
    simp
  have hafter : (⟨quote :: (v ++ quote :: rest), offset⟩ : Tail).drop (v.length + 2) =
      ⟨rest, offset + byteLen (quote :: v ++ [quote])⟩ := by
    simpa using drop_written (quote :: v ++ [quote]) rest offset
  have hblanks : s.tail.passBlanks = ⟨quote :: (v ++ quote :: rest), offset⟩ := by
    rw [hs.tail, Tail.passBlanks]
    simp [passGap_of_solid hgap hslash hless]
  have hrun : attributeValue r s = .ok (.strLit ⟨offset, offset + byteLen (quote :: v ++ [quote])⟩
      (String.ofList (decodeEntities v)), s.resumed ⟨rest, offset + byteLen (quote :: v ++ [quote])⟩) := by
    simp [attributeValue, hblanks, hquote, hbody, hafter]
  exact ⟨_, _, hrun, ⟨_, rfl⟩, rfl, hs.limit⟩

/-- **Values in braces.** A string literal in braces is read as the text that was escaped in it. -/
theorem finds_braced (depth : Nat) (v : List Char) :
    Finds Precedes (attributeValue (readGoal (depth + 3))) ('\x7b' :: Json.quote v ++ ['\x7d']) fun n =>
      ∃ span inner, n = .container span (some (.strLit inner (String.ofList v))) := by
  intro rest offset s hs
  have htail : s.tail = ⟨'\x7b' :: (Json.quote v ++ '\x7d' :: rest), offset⟩ := by
    rw [hs.tail]
    simp
  have hopenText : "\x7b".toList = ['\x7b'] := rfl
  have hcloseText : "\x7d".toList = ['\x7d'] := rfl
  -- the opening brace, the string and the closing brace, one token after the other
  obtain ⟨hopen, htail₁⟩ := next_over (htail ▸ scan_brace hopenText (.inl rfl) _ _)
  obtain ⟨hstring, htail₂⟩ := next_over (htail₁ ▸ scan_quote v _ _)
  obtain ⟨hclose, htail₃⟩ := next_over (htail₂ ▸ scan_brace hcloseText (.inr rfl) _ _)
  have hread := ClosedString.readGoal_expression ⟨hstring, hclose, hs.limit⟩ depth
  have hblanks : s.tail.passBlanks = ⟨'\x7b' :: (Json.quote v ++ '\x7d' :: rest), offset⟩ := by
    rw [htail, Tail.passBlanks, passGap_of_solid (by decide) (by decide) (by decide)]
  have hcontainer : container (readGoal (depth + 3)) false s.next = .ok (.container
      ⟨s.next.token.span.lo, s.next.next.next.token.span.hi⟩ (some (.strLit s.next.next.token.span (String.ofList v))),
      s.next.next.next) := by
    simp [container, run_expectMark hopen, hread, run_containerEnd hclose]
  have hrun : attributeValue (readGoal (depth + 3)) s = .ok (.container
      ⟨s.next.token.span.lo, s.next.next.next.token.span.hi⟩ (some (.strLit s.next.next.token.span (String.ofList v))),
      s.next.next.next.next) := by
    simp [attributeValue, hblanks, Token.isMark, hopen, hcontainer]
  have hlast : Precedes ⟨rest, offset + byteLen ('\x7b' :: Json.quote v ++ ['\x7d'])⟩ s.next.next.next :=
    ⟨htail₃.trans (by simp [Nat.add_assoc]), hs.limit⟩
  exact ⟨_, _, hrun, ⟨_, _, rfl⟩, hlast.next⟩

/-- **Class attributes.** What is found as a value is found in an attribute with the name and the equals sign. -/
theorem finds_className {r : Goal → Parse Node} {c : Char} {written : List Char} {P : Node → Prop}
    (hc : c = '\x22' ∨ c = '\x27' ∨ c = '\x7b') (h : Finds Precedes (attributeValue r) (c :: written) P) :
    Finds Stands (attribute? r) (" className=".toList ++ c :: written) fun n =>
      ∃ span value, n = some (.attr span "className" (some value)) ∧ P value := by
  intro rest offset s hs
  rw [List.append_assoc] at hs
  obtain ⟨hhead, htoken, -⟩ := Step.mk.inj (hs.step.trans (scan_className _ _))
  have hname : s.token.lexeme = .word "className" false := by rw [htoken]
  have hplace : s.head = ⟨"className".toList ++ '=' :: c :: (written ++ rest), offset + 1⟩ := hhead
  have htaken : (s.head.chars.takeWhile fun c => isNamePart c || c = '-') = "className".toList := by
    rw [hplace]
    rfl
  have hdrop : s.head.drop 9 = ⟨'=' :: c :: (written ++ rest), offset + 10⟩ := by
    rw [hplace]
    exact drop_written "className".toList ('=' :: c :: (written ++ rest)) (offset + 1)
  -- the name, and the equals sign after it
  let s' := s.resumed ⟨'=' :: c :: (written ++ rest), offset + 10⟩
  have hread : dashedName s = .ok (("className", ⟨offset + 1, offset + 10⟩), s') := by
    have hoffset : s.head.offset = offset + 1 := by rw [hplace]
    simp only [dashedName, run_bind, run_get, ok_bind, htaken]
    simp [hdrop, hoffset, Token.name?, hname, s']
  obtain ⟨hequals, htail⟩ : s'.token.lexeme = .mark "=" ∧ s'.tail = ⟨c :: (written ++ rest), offset + 11⟩ := by
    simp [s', Reading.resumed, Reading.before, scan_equals hc, Step.over, show '='.utf8Size = 1 from rfl]
  obtain ⟨value, t, hvalue, hP, ht⟩ := h rest (offset + 11) s' ⟨htail, hs.limit⟩
  refine ⟨some (.attr ⟨s.token.span.lo, t.previous.hi⟩ "className" (some value)), t, ?_, ⟨_, _, rfl, hP⟩, ?_⟩
  · simp [attribute?, Token.isMark, Token.name?, hname, hread, hequals, hvalue]
  · rw [byteLen_append, ← Nat.add_assoc]
    exact ht

end TsxWorkbench.Syntax
