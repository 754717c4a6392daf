/-
A calculus for readers of a module. `Ok p s Q` says what holds if p succeeds from the state s; failures promise nothing.
States are measured against a byte at which some reading began: `At lo floor s` says that s is a sound state, that it
has not gone back before lo, and that everything up to floor has been read. What one reader does is said once and for
all such bytes:

- `Moves`: it goes on from where it was, perhaps by nothing.
- `Passes`: it reads at least one token.
- `Reads`: it reads at least one token, and its node is in place between the byte and the last token read.
- `Offers`: it either finds nothing or reads a node.

The rules for repetition (`many_moves`, `extend_ok`, `itemsUntil_series`) are inductions on the bound of the loop; what
a reader of the grammar does follows from the rules in the order of its text.
-/
import TsxWorkbench.Proofs.Syntax.Scanning
import TsxWorkbench.Proofs.Syntax.Tree

namespace TsxWorkbench.Syntax

open Text Node

variable {source : List Char} {α β : Type} {lo lo' floor floor' : Nat} {s t : Reading}

/-! ## States -/

namespace Reading

/-- byte at which the current token starts -/
def place (s : Reading) : Nat := s.token.span.lo

/-- byte at which the current token ends -/
def past (s : Reading) : Nat := s.token.span.hi

/-- byte up to which tokens have been read -/
def seen (s : Reading) : Nat := s.previous.hi

/-- a state whose current token lies in the text, after all that was read -/
structure Sound (source : List Char) (s : Reading) : Prop where
  step : Step.Sound source ⟨s.head, s.token, s.tail⟩
  seen_le : s.seen ≤ s.place
  seen : Boundary source s.seen

namespace Sound

theorem place_eq (h : s.Sound source) : s.place = s.head.offset := by rw [place, h.step.span]

theorem past_eq (h : s.Sound source) : s.past = s.tail.offset := by rw [past, h.step.span]

theorem place_le_past (h : s.Sound source) : s.place ≤ s.past := by
  rw [h.place_eq, h.past_eq]
  exact h.step.tail.offset_le

theorem tail_rest (h : s.Sound source) : s.tail.RestOf ⟨source, 0⟩ := h.step.tail.trans h.step.head

theorem boundary_place (h : s.Sound source) : Boundary source s.place := h.place_eq ▸ h.step.head.boundary

theorem boundary_past (h : s.Sound source) : Boundary source s.past := h.past_eq ▸ h.tail_rest.boundary

/-- a mark does not end in a blank -/
theorem solid_of_mark (h : s.Sound source) {m : String} (hm : s.token.lexeme = .mark m) : Solid source s.past := by
  obtain ⟨hchars, hne, hblank⟩ := h.step.mark m hm
  obtain ⟨passed, hs, ho⟩ := h.step.head
  obtain ⟨text, htext, hto⟩ := h.step.tail
  obtain ⟨pre, c, hm⟩ : ∃ pre c, m.toList = pre ++ [c] :=
    ⟨_, _, (List.dropLast_append_getLast hne).symm⟩
  refine ⟨passed ++ pre, c, s.tail.chars, ?_, hblank c (by simp [hm]), ?_⟩
  · rw [show source = passed ++ s.head.chars from hs, hchars, hm]
    simp
  · obtain rfl : m.toList = text := List.append_cancel_right (hchars.symm.trans htext)
    rw [h.past_eq, show s.tail.offset = _ from hto, show s.head.offset = _ from ho, hm]
    simp

/-- a mark has a character -/
theorem place_lt_past_of_mark (h : s.Sound source) {m : String} (hm : s.token.lexeme = .mark m) :
    s.place < s.past := by
  obtain ⟨hchars, hne, -⟩ := h.step.mark m hm
  obtain ⟨text, htext, hto⟩ := h.step.tail
  obtain rfl : m.toList = text := List.append_cancel_right (hchars.symm.trans htext)
  rw [h.place_eq, h.past_eq, show s.tail.offset = _ from hto]
  exact Nat.lt_add_of_pos_right (Nat.pos_of_ne_zero fun hzero => hne (byteLen_eq_zero hzero))

theorem solid_of_word (h : s.Sound source) {name : String} {escaped : Bool}
    (hw : s.token.lexeme = .word name escaped) : Solid source s.past := h.past_eq ▸ h.step.word name escaped hw

end Sound

end Reading

/-- a sound state of a reading that began at lo and has read everything up to floor -/
structure At (source : List Char) (lo floor : Nat) (s : Reading) : Prop where
  sound : s.Sound source
  boundary : Boundary source lo
  lo_le : lo ≤ s.place
  floor_le : floor ≤ s.seen

theorem Reading.Sound.at_place (h : s.Sound source) : At source s.place s.seen s :=
  ⟨h, h.boundary_place, Nat.le_refl _, Nat.le_refl _⟩

namespace At

theorem lower (h : At source lo floor s) (hlo : lo' ≤ lo) (hb : Boundary source lo') (hfloor : floor' ≤ floor) :
    At source lo' floor' s :=
  ⟨h.sound, hb, hlo.trans h.lo_le, hfloor.trans h.floor_le⟩

theorem here (h : At source lo floor s) : At source s.place s.seen s := h.sound.at_place

theorem now (h : At source lo floor s) : At source lo s.seen s := ⟨h.sound, h.boundary, h.lo_le, Nat.le_refl _⟩

/-- a reading that goes on elsewhere has not gone back -/
theorem after (h : At source lo floor s) (ht : At source s.place floor' t) (hfloor : s.seen ≤ floor') :
    At source lo floor t :=
  ht.lower h.lo_le h.boundary (h.floor_le.trans hfloor)

/-- a reading that has read a token elsewhere has gone on from here -/
theorem onward (h : At source lo floor s) (ht : At source s.place s.place t) : At source lo floor t :=
  h.after ht h.sound.seen_le

/-- a reading that has read a token elsewhere has read one here -/
theorem passed (h : At source lo floor s) (ht : At source s.place s.place t) : At source lo lo t :=
  ht.lower h.lo_le h.boundary h.lo_le

/-- what was read is behind the current token -/
theorem floor_le_place (h : At source lo floor s) : floor ≤ s.place := h.floor_le.trans h.sound.seen_le

end At

/-! ## Success -/

/-- what holds of the result and the state after it, if a reader succeeds -/
def Ok (p : Parse α) (s : Reading) (Q : α → Reading → Prop) : Prop := ∀ a t, p s = .ok (a, t) → Q a t

namespace Ok

variable {p : Parse α} {f : α → Parse β} {P : α → Reading → Prop} {Q : β → Reading → Prop}

theorem mono {Q' : β → Reading → Prop} {p : Parse β} (h : Ok p s Q) (k : ∀ a t, Q a t → Q' a t) : Ok p s Q' :=
  fun a t ht => k a t (h a t ht)

theorem bind (h : Ok p s P) (k : ∀ a t, P a t → Ok (f a) t Q) : Ok (p >>= f) s Q := by
  intro b u hu
  rw [show (p >>= f) s = (p s >>= fun x => f x.1 x.2) from rfl] at hu
  cases hp : p s with
  | error e => rw [hp] at hu; cases hu
  | ok x => rw [hp] at hu; exact k x.1 x.2 (h x.1 x.2 hp) b u hu

theorem pure {b : β} (h : Q b s) : Ok (pure b) s Q := by
  intro b' t ht
  cases ht
  exact h

/-- a reader that leaves the state as it is -/
theorem look {a : α} (h : p s = .ok (a, s)) (k : Ok (f a) s Q) : Ok (p >>= f) s Q := by
  refine bind (P := fun a' t => a' = a ∧ t = s) (fun a' t ht => ?_) fun a' t ⟨ha, ht⟩ => ha ▸ ht ▸ k
  rw [h] at ht
  cases ht
  exact ⟨rfl, rfl⟩

theorem peek (h : Ok p s fun _ t => t = s) (k : ∀ a, Ok (f a) s Q) : Ok (p >>= f) s Q :=
  bind h fun a _ ht => ht ▸ k a

theorem throw {e : Failure} : Ok (throw e) s Q := fun _ _ h => by cases h

theorem throw_bind {e : Failure} : Ok (MonadExcept.throw e >>= f) s Q :=
  bind (throw (Q := fun _ _ => False)) fun _ _ h => h.elim

theorem failHere {cause : Cause} : Ok (failHere cause) s Q := by
  refine look rfl ?_
  split <;> exact throw

theorem failHere_bind {cause : Cause} : Ok (Syntax.failHere cause >>= f) s Q :=
  bind (failHere (Q := fun _ _ => False)) fun _ _ h => h.elim

theorem ite {c : Prop} [Decidable c] {p q : Parse β} (yes : c → Ok p s Q) (no : ¬c → Ok q s Q) :
    Ok (if c then p else q) s Q := by
  split
  · exact yes ‹_›
  · exact no ‹_›

theorem map {g : α → β} (h : Ok p s fun a t => Q (g a) t) : Ok (g <$> p) s Q := bind h fun _ _ h => pure h

end Ok

/-! ## Tokens -/

/-- the state in which the token at the start of a rest of the text is the current one -/
theorem at_scan {u : Tail} (hu : u.RestOf ⟨source, 0⟩) {previous : Span} (hp : previous.hi = u.offset)
    (hb : Boundary source lo) (hle : lo ≤ u.offset) (limit : Nat) :
    At source lo lo ⟨(scan u).head, (scan u).token, (scan u).tail, previous, limit⟩ := by
  have hstep := scan_sound hu
  have hplace : (scan u).token.span.lo = (scan u).head.offset := by rw [hstep.span]
  have hhead := (scan_head_rest u).offset_le
  refine ⟨⟨hstep, ?_, ?_⟩, hb, ?_, ?_⟩
  · show previous.hi ≤ (scan u).token.span.lo
    omega
  · show Boundary source previous.hi
    exact hp ▸ hu.boundary
  · show lo ≤ (scan u).token.span.lo
    omega
  · show lo ≤ previous.hi
    omega

theorem resume_ok (h : At source lo floor s) {u : Tail} (hu : u.RestOf ⟨source, 0⟩) (hle : s.place ≤ u.offset) :
    Ok (resume u) s fun _ t => At source lo lo t ∧ t.seen = u.offset := by
  intro a t ht
  cases ht
  exact ⟨at_scan hu rfl h.boundary (h.lo_le.trans hle) s.limit, rfl⟩

/-- a state after the current token of another was read -/
structure Took (source : List Char) (lo : Nat) (s t : Reading) : Prop where
  state : At source lo lo t
  span : SpanFits source lo t.seen s.token.span
  seen_eq : t.seen = s.past

theorem advance_ok (h : At source lo floor s) : Ok advance s fun _ t => Took source lo s t := by
  intro a t ht
  cases ht
  exact ⟨at_scan h.sound.tail_rest h.sound.past_eq h.boundary
    (h.sound.past_eq ▸ h.lo_le.trans h.sound.place_le_past) s.limit,
    ⟨h.lo_le, h.sound.place_le_past, Nat.le_refl _, h.sound.boundary_place, h.sound.boundary_past⟩, rfl⟩

theorem takeMark_ok (h : At source lo floor s) (text : String) : Ok (takeMark text) s fun taken t =>
    if taken then Took source lo s t ∧ Solid source t.seen else t = s := by
  refine .look rfl (.ite (fun hmark => ?_) fun _ => .pure rfl)
  refine .bind (advance_ok h) fun _ t ht => .pure ⟨ht, ht.seen_eq ▸ ?_⟩
  unfold Token.isMark at hmark
  split at hmark
  · exact h.sound.solid_of_mark ‹_›
  · exact absurd hmark Bool.false_ne_true

theorem takeWord_ok (h : At source lo floor s) (text : String) : Ok (takeWord text) s fun taken t =>
    if taken then Took source lo s t ∧ Solid source t.seen else t = s := by
  refine .look rfl (.ite (fun hword => ?_) fun _ => .pure rfl)
  refine .bind (advance_ok h) fun _ t ht => .pure ⟨ht, ht.seen_eq ▸ ?_⟩
  unfold Token.isWord at hword
  split at hword
  · exact h.sound.solid_of_word ‹_›
  · exact absurd hword Bool.false_ne_true

theorem ifMark_ok {p q : Parse α} {Q : α → Reading → Prop} (h : At source lo floor s) {text : String}
    (yes : ∀ t, Took source lo s t → Solid source t.seen → Ok p t Q) (no : Ok q s Q) :
    Ok (takeMark text >>= fun taken => if taken = true then p else q) s Q := by
  refine .bind (takeMark_ok h text) fun taken t ht => ?_
  cases taken with
  | true => exact yes t ht.1 ht.2
  | false => exact (show t = s from ht) ▸ no

theorem ifWord_ok {p q : Parse α} {Q : α → Reading → Prop} (h : At source lo floor s) {text : String}
    (yes : ∀ t, Took source lo s t → Solid source t.seen → Ok p t Q) (no : Ok q s Q) :
    Ok (takeWord text >>= fun taken => if taken = true then p else q) s Q := by
  refine .bind (takeWord_ok h text) fun taken t ht => ?_
  cases taken with
  | true => exact yes t ht.1 ht.2
  | false => exact (show t = s from ht) ▸ no

/-! ## Readers -/

/-- a reader that goes on from where it was -/
def Moves (source : List Char) (p : Parse α) (V : α → Prop) : Prop :=
  ∀ ⦃lo floor : Nat⦄ ⦃s : Reading⦄, At source lo floor s → Ok p s fun a t => At source lo floor t ∧ V a

/-- a reader of at least one token -/
def Passes (source : List Char) (p : Parse α) (V : α → Prop) : Prop :=
  ∀ ⦃lo floor : Nat⦄ ⦃s : Reading⦄, At source lo floor s → Ok p s fun a t => At source lo lo t ∧ V a

/-- a state after a node was read -/
def Read (source : List Char) (lo : Nat) (n : Node) (t : Reading) : Prop :=
  At source lo lo t ∧ n.Fits source lo t.seen

/-- a reader of a node -/
def Reads (source : List Char) (p : Parse Node) : Prop :=
  ∀ ⦃lo floor : Nat⦄ ⦃s : Reading⦄, At source lo floor s → Ok p s (Read source lo)

/-- a state after a node was read or nothing was found -/
def Offered (source : List Char) (lo floor : Nat) (found : Option Node) (t : Reading) : Prop :=
  match found with
  | none => At source lo floor t
  | some n => Read source lo n t

/-- a reader that may find a node -/
def Offers (source : List Char) (p : Parse (Option Node)) : Prop :=
  ∀ ⦃lo floor : Nat⦄ ⦃s : Reading⦄, At source lo floor s → Ok p s (Offered source lo floor)

theorem Read.lower {n : Node} (h : At source lo floor s) (hn : Read source s.place n t) : Read source lo n t :=
  ⟨h.passed hn.1, hn.2.mono h.lo_le (Nat.le_refl _)⟩

theorem Reads.of_here {p : Parse Node} (k : ∀ s, At source s.place s.seen s → Ok p s (Read source s.place)) :
    Reads source p := fun _ _ s h => (k s h.here).mono fun _ _ => .lower h

theorem Offers.of_here {p : Parse (Option Node)}
    (k : ∀ s, At source s.place s.seen s → Ok p s (Offered source s.place s.seen)) : Offers source p := by
  intro lo floor s h
  refine (k s h.here).mono fun found t ht => ?_
  cases found with
  | none => exact h.after ht (Nat.le_refl _)
  | some n => exact Read.lower h ht

theorem Moves.of_here {p : Parse α} {V : α → Prop}
    (k : ∀ s, At source s.place s.seen s → Ok p s fun a t => At source s.place s.seen t ∧ V a) : Moves source p V :=
  fun _ _ s h => (k s h.here).mono fun _ _ ht => ⟨h.after ht.1 (Nat.le_refl _), ht.2⟩

theorem Read.moved {n : Node} (h : At source lo floor s) (hn : Read source s.place n t) :
    At source lo floor t ∧ n.Placed source := ⟨h.onward hn.1, hn.2.placed⟩

theorem Passes.moves {p : Parse α} {V : α → Prop} (hp : Passes source p V) : Moves source p V := fun _ _ _ h =>
  (hp h.here).mono fun _ _ ht => ⟨h.onward ht.1, ht.2⟩

theorem Reads.passes {p : Parse Node} (hp : Reads source p) : Passes source p (Placed source) := fun _ _ _ h =>
  (hp h).mono fun _ _ ht => ⟨ht.1, ht.2.placed⟩

theorem Reads.moves {p : Parse Node} (hp : Reads source p) : Moves source p (Placed source) := hp.passes.moves

theorem Offers.moves {p : Parse (Option Node)} (hp : Offers source p) :
    Moves source p fun found => AllPlaced source found.toList := by
  intro lo floor s h
  refine (hp h.here).mono fun found t ht => ?_
  cases found with
  | none => exact ⟨h.after ht (Nat.le_refl _), allPlaced_nil⟩
  | some n => exact ⟨h.onward ht.1, by simpa using ht.2.placed⟩

/-- a node that was read from lo on is in place if what it promises of its parts holds and they are in place -/
theorem At.node (h : At source lo lo t) {n : Node} (hspan : n.span = ⟨lo, t.seen⟩) (hparts : n.PartsPlaced source)
    (hchildren : AllPlaced source n.children) : Read source lo n t :=
  ⟨h, .of_span hspan ⟨Nat.le_refl _, h.floor_le, Nat.le_refl _, h.boundary, h.sound.seen⟩ hparts hchildren⟩

/-- an item that is left out, before a comma -/
theorem At.hole (h : At source lo floor s) : (Node.hole ⟨s.place, s.place⟩).Placed source :=
  placed_iff.2 ⟨⟨Nat.le_refl _, Nat.le_refl _, Nat.le_refl _, h.sound.boundary_place, h.sound.boundary_place⟩, trivial,
    allPlaced_nil⟩

/-- a node made of the token that was read -/
theorem Took.node (h : Took source lo s t) {n : Node} (hspan : n.span = s.token.span) (hparts : n.PartsPlaced source)
    (hchildren : AllPlaced source n.children) : Read source lo n t :=
  ⟨h.state, .of_span hspan h.span hparts hchildren⟩

/-- a node without parts that is made of the current token -/
theorem token_reads (h : At source lo floor s) {n : Node} (hspan : n.span = s.token.span)
    (hparts : n.PartsPlaced source) (hchildren : AllPlaced source n.children) :
    Ok (advance >>= fun _ => pure n) s (Read source lo) :=
  .bind (advance_ok h) fun _ _ ht => .pure (ht.node hspan hparts hchildren)

/-- a node read before stays where it is while reading goes on -/
theorem Moves.keep {p : Parse α} {V : α → Prop} (hp : Moves source p V) (h : At source lo lo s) {n : Node}
    (hn : n.Fits source lo s.seen) : Ok p s fun a t => At source lo lo t ∧ V a ∧ n.Fits source lo t.seen :=
  (hp h.here).mono fun _ _ ht =>
    ⟨h.after ht.1 (Nat.le_refl _), ht.2, hn.mono (Nat.le_refl _) ht.1.floor_le⟩

/-! ## Marks and words -/

theorem advance_moves : Moves source advance fun _ => True := fun _ _ _ h =>
  (advance_ok h.here).mono fun _ _ ht => ⟨h.onward ht.state, trivial⟩

theorem takeMark_moves (text : String) : Moves source (takeMark text) fun _ => True := by
  intro lo floor s h
  refine (takeMark_ok h.here text).mono fun taken t ht => ?_
  cases taken with
  | true => exact ⟨h.onward ht.1.state, trivial⟩
  | false => exact ⟨(show t = s from ht) ▸ h, trivial⟩

theorem takeWord_moves (text : String) : Moves source (takeWord text) fun _ => True := by
  intro lo floor s h
  refine (takeWord_ok h.here text).mono fun taken t ht => ?_
  cases taken with
  | true => exact ⟨h.onward ht.1.state, trivial⟩
  | false => exact ⟨(show t = s from ht) ▸ h, trivial⟩

theorem expectMark_ok (h : At source lo floor s) (text : String) : Ok (expectMark text) s fun _ t =>
    At source lo lo t ∧ Solid source t.seen :=
  ifMark_ok h (fun _ ht hsolid => .pure ⟨ht.state, hsolid⟩) (.look rfl .failHere)

/-- a mark that is read is passed -/
theorem expectMark_past (h : At source lo floor s) (text : String) : Ok (expectMark text) s fun _ t =>
    At source lo lo t ∧ s.place < t.seen := by
  have htake : Ok (takeMark text) s fun taken t => taken = true → At source lo lo t ∧ s.place < t.seen := by
    refine .look rfl (.ite (fun hmark => ?_) fun _ => .pure (by simp))
    refine .bind (advance_ok h) fun _ t ht => .pure fun _ => ⟨ht.state, ht.seen_eq ▸ ?_⟩
    unfold Token.isMark at hmark
    split at hmark
    · exact h.sound.place_lt_past_of_mark ‹_›
    · exact absurd hmark Bool.false_ne_true
  refine .bind htake fun taken t ht => ?_
  cases taken with
  | true => exact .pure (ht rfl)
  | false => exact .look rfl .failHere

theorem expectMark_moves (text : String) : Moves source (expectMark text) fun _ => True := fun _ _ _ h =>
  (expectMark_ok h.here text).mono fun _ _ ht => ⟨h.onward ht.1, trivial⟩

theorem expectWord_ok (h : At source lo floor s) (text : String) : Ok (expectWord text) s fun _ t =>
    At source lo lo t ∧ Solid source t.seen :=
  ifWord_ok h (fun _ ht hsolid => .pure ⟨ht.state, hsolid⟩) (.look rfl .failHere)

theorem expectWord_moves (text : String) : Moves source (expectWord text) fun _ => True := fun _ _ _ h =>
  (expectWord_ok h.here text).mono fun _ _ ht => ⟨h.onward ht.1, trivial⟩

theorem splitMark_moves (first : Char) : Moves source (splitMark first) fun _ => True := by
  intro lo floor s h a t ht
  refine ⟨?_, trivial⟩
  cases ht
  dsimp only
  split
  · rename_i m hm
    split_ifs with hfirst
    · -- the mark goes on after its first character
      obtain ⟨hchars, -, hblank⟩ := h.sound.step.mark m hm
      obtain ⟨rest, hrest⟩ : ∃ rest, m.toList = first :: rest := List.head?_eq_some_iff.1 hfirst.1
      refine ⟨⟨⟨h.sound.step.head, .drop _ _, rfl, ?_, by simp⟩, ?_, h.sound.seen⟩, h.boundary, ?_, h.floor_le⟩
      · intro m' hm'
        cases hm'
        refine ⟨?_, by simp, by simpa [hrest] using hblank first (by simp [hrest])⟩
        simp only [Tail.drop, String.toList_singleton]
        rw [hchars, hrest]
        rfl
      · exact h.sound.seen_le.trans_eq h.sound.place_eq
      · exact h.lo_le.trans_eq h.sound.place_eq
    · exact h
  · exact h

theorem endStatement_moves : Moves source endStatement fun _ => True := by
  intro lo floor s h
  refine ifMark_ok h.here (fun t ht _ => .pure ⟨h.onward ht.state, trivial⟩) ?_
  exact .look rfl (.ite (fun _ => .pure ⟨h, trivial⟩) fun _ => .failHere)

/-- a reader of a name gives its range -/
def ReadsName (source : List Char) (p : Parse (String × Span)) : Prop :=
  ∀ ⦃lo floor : Nat⦄ ⦃s : Reading⦄, At source lo floor s → Ok p s fun found t =>
    At source lo lo t ∧ SpanFits source lo t.seen found.2

theorem ReadsName.moves {p : Parse (String × Span)} (hp : ReadsName source p) : Moves source p fun _ => True :=
  Passes.moves fun _ _ _ h => (hp h).mono fun _ _ ht => ⟨ht.1, trivial⟩

theorem identifier_reads (cause : Cause) : ReadsName source (identifier cause) := by
  intro lo floor s h
  refine .look rfl ?_
  split
  · exact .bind (advance_ok h) fun _ t ht => .pure ⟨ht.state, ht.span⟩
  · exact .failHere

theorem anyWord_reads : ReadsName source anyWord := by
  intro lo floor s h
  refine .look rfl ?_
  split
  · exact .bind (advance_ok h) fun _ t ht => .pure ⟨ht.state, ht.span⟩
  · exact .failHere

/-- a word does not end in a blank -/
theorem anyWord_solid (h : At source lo floor s) : Ok anyWord s fun _ t => At source lo lo t ∧ Solid source t.seen := by
  refine .look rfl ?_
  split
  · rename_i name hname
    refine .bind (advance_ok h) fun _ t ht => .pure ⟨ht.state, ht.seen_eq ▸ ?_⟩
    unfold Token.name? at hname
    split at hname
    · exact h.sound.solid_of_word ‹_›
    · cases hname
  · exact .failHere

theorem stringLiteral_reads : ReadsName source stringLiteral := by
  intro lo floor s h
  refine .look rfl ?_
  split
  · exact .bind (advance_ok h) fun _ t ht => .pure ⟨ht.state, ht.span⟩
  · exact .failHere

/-! ## Choice and repetition -/

theorem attempt_ok {p : Parse α} {Q : α → Reading → Prop} (h : Ok p s Q) : Ok (attempt p) s fun found t =>
    match found with
    | none => t = s
    | some a => Q a t := by
  intro found t ht
  unfold attempt at ht
  split at ht
  · cases ht
    exact h _ _ ‹_›
  · cases ht
    rfl

theorem tryRead_ok {p : Parse α} {Q : α → Reading → Prop} (h : Ok p s Q) : Ok (tryRead p) s fun found t =>
    match found with
    | .error _ => t = s
    | .ok a => Q a t := by
  intro found t ht
  unfold tryRead at ht
  split at ht
  · cases ht
    exact h _ _ ‹_›
  · cases ht
    rfl

theorem attempt_moves {p : Parse α} {V : α → Prop} (hp : Moves source p V) :
    Moves source (attempt p) fun found => ∀ a ∈ found, V a := by
  intro lo floor s h
  refine (attempt_ok (hp h)).mono fun found t ht => ?_
  cases found with
  | none => exact ⟨(show t = s from ht) ▸ h, by simp⟩
  | some a => exact ⟨ht.1, by simpa using ht.2⟩

/-- a list that is read item by item: J holds before each item, and I of what is read from a state on -/
theorem many_ok {p : Parse (Option α)} {J : Reading → Prop} {I : Reading → List α → Reading → Prop}
    (step : ∀ s, J s → Ok p s fun found t => match found with
      | none => I s [] t
      | some a => J t ∧ ∀ as u, I t as u → I s (a :: as) u) (hs : J s) : Ok (many p) s (I s) := by
  have loop (n : Nat) : ∀ s, J s → Ok (repeatAtMost n p) s (I s) := by
    induction n with
    | zero => exact fun s _ => .look rfl .throw
    | succ n ih =>
      intro s hs
      refine .bind (step s hs) fun found t ht => ?_
      cases found with
      | none => exact .pure ht
      | some a => exact .bind (ih t ht.1) fun as u hu => .pure (ht.2 as u hu)
  exact .look rfl (loop s.limit s hs)

theorem many_moves {p : Parse (Option α)} {V : α → Prop} (hp : Moves source p fun found => ∀ a ∈ found, V a) :
    Moves source (many p) fun as => ∀ a ∈ as, V a := by
  intro lo floor s h
  refine many_ok (J := At source lo floor) (I := fun _ as t => At source lo floor t ∧ ∀ a ∈ as, V a)
    (fun s hs => (hp hs).mono fun found t ht => ?_) h
  cases found with
  | none => exact ⟨ht.1, by simp⟩
  | some a => exact ⟨ht.1, fun as u hu => ⟨hu.1, List.forall_mem_cons.2 ⟨ht.2 a rfl, hu.2⟩⟩⟩

/-- a value that is grown: I holds of it and of the state before each step, and K once nothing is left to add -/
theorem extend_ok {p : α → Parse (Option α)} {I K : α → Reading → Prop}
    (step : ∀ a s, I a s → Ok (p a) s fun found t => match found with
      | none => K a t
      | some b => I b t) {a : α} (hs : I a s) : Ok (extend p a) s K := by
  have loop (n : Nat) : ∀ a s, I a s → Ok (extendAtMost n p a) s K := by
    induction n with
    | zero => exact fun a s _ => .look rfl .throw
    | succ n ih =>
      intro a s hs
      refine .bind (step a s hs) fun found t ht => ?_
      cases found with
      | none => exact .pure ht
      | some b => exact ih b t ht
  exact .look rfl (loop s.limit a s hs)

/-! ## Lists -/

variable {item : Parse α} {V : α → Prop}

theorem given_moves (condition : Bool) (hitem : Moves source item V) :
    Moves source (given condition item) fun found => ∀ a ∈ found, V a := by
  intro lo floor s h
  refine .ite (fun _ => ?_) fun _ => .pure ⟨h, by simp⟩
  exact .bind (hitem h) fun a t ⟨ht, ha⟩ => .pure ⟨ht, by simpa using ha⟩

theorem afterMark_moves (text : String) (hitem : Moves source item V) :
    Moves source (afterMark text item) fun found => ∀ a ∈ found, V a := fun _ _ _ h =>
  .bind (takeMark_moves text h) fun taken _ ht => given_moves taken hitem ht.1

theorem afterWord_moves (text : String) (hitem : Moves source item V) :
    Moves source (afterWord text item) fun found => ∀ a ∈ found, V a := fun _ _ _ h =>
  .bind (takeWord_moves text h) fun taken _ ht => given_moves taken hitem ht.1

theorem separator_moves (close : String) : Moves source (separator close) fun _ => True := fun _ _ _ h =>
  .look rfl (.ite (fun _ => .pure ⟨h, trivial⟩) fun _ => expectMark_moves "," h)

theorem itemsUntil_moves (close : String) (hitem : Moves source item V) :
    Moves source (itemsUntil close item) fun as => ∀ a ∈ as, V a := by
  refine many_moves fun lo floor s h => ?_
  refine ifMark_ok h.here (fun t ht _ => .pure ⟨h.onward ht.state, by simp⟩) ?_
  refine .bind (hitem h) fun a t ⟨ht, ha⟩ => ?_
  exact .bind (separator_moves close ht) fun _ u hu => .pure ⟨hu.1, by simpa using ha⟩

theorem runUntil_moves (close : String) (hitem : Moves source item V) :
    Moves source (runUntil close item) fun as => ∀ a ∈ as, V a := by
  refine many_moves fun lo floor s h => ?_
  refine ifMark_ok h.here (fun t ht _ => .pure ⟨h.onward ht.state, by simp⟩) ?_
  exact .bind (hitem h) fun a t ⟨ht, ha⟩ => .pure ⟨ht, by simpa using ha⟩

theorem bodyUntilBrace_moves (hitem : Moves source item V) :
    Moves source (bodyUntilBrace item) fun as => ∀ a ∈ as, V a := by
  refine many_moves fun lo floor s h => ?_
  refine .look rfl (.ite (fun _ => .pure ⟨h, by simp⟩) fun _ => ?_)
  refine ifMark_ok h.here (fun t ht _ => .pure ⟨h.onward ht.state, by simp⟩) ?_
  exact .bind (hitem h) fun a t ⟨ht, ha⟩ => .pure ⟨ht, by simpa using ha⟩

theorem many_any {p : Parse (Option α)} (hp : Moves source p fun _ => True) : Moves source (many p) fun _ => True :=
  fun _ _ _ h => (many_moves (V := fun _ => True) (fun _ _ _ h => (hp h).mono fun _ _ ht => ⟨ht.1, by simp⟩) h).mono
    fun _ _ ht => ⟨ht.1, trivial⟩

theorem many_nodes {p : Parse (Option Node)} (hp : Moves source p fun found => AllPlaced source found.toList) :
    Moves source (many p) (AllPlaced source) :=
  many_moves fun _ _ _ h => (hp h).mono fun _ _ ht => ⟨ht.1, fun a ha => ht.2 a (Option.mem_toList.2 ha)⟩

theorem given_nodes {p : Parse Node} (condition : Bool) (hp : Moves source p (Placed source)) :
    Moves source (given condition p) fun found => AllPlaced source found.toList := fun _ _ _ h =>
  (given_moves condition hp h).mono fun _ _ ht => ⟨ht.1, fun a ha => ht.2 a (Option.mem_toList.1 ha)⟩

theorem afterMark_nodes {p : Parse Node} (text : String) (hp : Moves source p (Placed source)) :
    Moves source (afterMark text p) fun found => AllPlaced source found.toList := fun _ _ _ h =>
  (afterMark_moves text hp h).mono fun _ _ ht => ⟨ht.1, fun a ha => ht.2 a (Option.mem_toList.1 ha)⟩

theorem afterWord_nodes {p : Parse Node} (text : String) (hp : Moves source p (Placed source)) :
    Moves source (afterWord text p) fun found => AllPlaced source found.toList := fun _ _ _ h =>
  (afterWord_moves text hp h).mono fun _ _ ht => ⟨ht.1, fun a ha => ht.2 a (Option.mem_toList.1 ha)⟩

theorem itemsUntil_nodes {p : Parse Node} (close : String) (hp : Moves source p (Placed source)) :
    Moves source (itemsUntil close p) (AllPlaced source) := itemsUntil_moves close hp

/-- items of a list that are nodes follow one another from where reading stood to where it leaves off -/
theorem itemsUntil_series {p : Parse Node} (close : String) (hp : Reads source p) (h : At source lo floor s) :
    Ok (itemsUntil close p) s fun as t =>
      At source lo s.seen t ∧ AllPlaced source as ∧ Series source s.seen as t.seen := by
  refine many_ok (J := fun s => At source lo s.seen s)
    (I := fun s as t => At source lo s.seen t ∧ AllPlaced source as ∧ Series source s.seen as t.seen)
    (fun s h => ?_) h.now
  refine ifMark_ok h.here (fun t ht _ => .pure ?_) ?_
  · exact ⟨h.after ht.state h.sound.seen_le, allPlaced_nil, h.sound.seen_le.trans ht.state.floor_le⟩
  refine .bind (hp h.here) fun a t ⟨ht, hfits⟩ => ?_
  refine .bind (separator_moves close ht.now) fun _ v ⟨hv, _⟩ => .pure ?_
  have hseen : s.seen ≤ v.seen := h.sound.seen_le.trans (ht.floor_le.trans hv.floor_le)
  refine ⟨(h.after hv (h.sound.seen_le.trans ht.floor_le)).now, fun as u ⟨hu, has, hseries⟩ => ?_⟩
  refine ⟨⟨hu.sound, hu.boundary, hu.lo_le, hseen.trans hu.floor_le⟩, allPlaced_cons.2 ⟨hfits.placed, has⟩, ?_, ?_⟩
  · exact hfits.span.mono h.sound.seen_le (hv.floor_le.trans hu.floor_le)
  · exact hseries.lower (hfits.span.hi_le.trans hv.floor_le)

theorem runUntil_nodes {p : Parse Node} (close : String) (hp : Moves source p (Placed source)) :
    Moves source (runUntil close p) (AllPlaced source) := runUntil_moves close hp

theorem bodyUntilBrace_nodes {p : Parse Node} (hp : Moves source p (Placed source)) :
    Moves source (bodyUntilBrace p) (AllPlaced source) := bodyUntilBrace_moves hp

/-! ## Goals -/

/-- a state after a node whose last mark is still the current token -/
def Held (source : List Char) (lo : Nat) (n : Node) (t : Reading) : Prop :=
  At source lo lo t ∧ n.Fits source lo t.past ∧ Solid source t.past

/-- passing its last mark completes a node -/
theorem Held.advance {n : Node} (h : Held source lo n s) : Ok advance s fun _ t =>
    Read source lo n t ∧ Solid source t.seen :=
  (advance_ok h.1).mono fun _ _ ht => ⟨⟨ht.state, ht.seen_eq ▸ h.2.1⟩, ht.seen_eq ▸ h.2.2⟩

/-- a reader of the element that starts at the current token; the last bracket of the element stays the current token -/
def ReadsHeld (source : List Char) (p : Parse Node) : Prop :=
  ∀ ⦃lo floor : Nat⦄ ⦃s : Reading⦄, At source lo floor s → Ok p s (Held source lo)

/-- a reader of goals that keeps its promise for each of them -/
structure Readers (source : List Char) (r : Goal → Parse Node) : Prop where
  type : Reads source (r .type)
  unconditionalType : Reads source (r .unconditionalType)
  target : Reads source (r .target)
  block : Reads source (r .block)
  element : ReadsHeld source (r .element)
  expression : ∀ allowIn, Reads source (r (.expression allowIn))
  assignment : ∀ allowIn beforeColon, Reads source (r (.assignment allowIn beforeColon))
  binary : ∀ above allowIn, Reads source (r (.binary above allowIn))
  unary : Reads source (r .unary)
  statement : ∀ topLevel, Reads source (r (.statement topLevel))

end TsxWorkbench.Syntax
