/-
Texts that the source tells. Strings, templates without parts and numbers may be added up, and parentheses and type
assertions may stand around every part; what such an expression stands for is an `Addition`, and its value is that of a
run: two numbers are added, and everything else is put together as text.

- `unwrapAtMost_eq_iff`: what is found under the wrappers of an expression.
- `textWithin_eq`: the text of an expression that stands for an addition.
- `staticText?_evaluates`: within the bounds the text is known unless the expression is a number or adds two numbers, and
  then it is the value; with any other operand in a sum there is none.
-/
import TsxWorkbench.Analysis.StaticValue

namespace TsxWorkbench.Syntax

/-- an expression without all that stands around it and keeps its value -/
def Node.bare : Node → Node
  | .wrapped _ _ inner _ => inner.bare
  | n => n

/-- number of wrappers in a row around an expression -/
def Node.wrappers : Node → Nat
  | .wrapped _ _ inner _ => inner.wrappers + 1
  | _ => 0

end TsxWorkbench.Syntax

namespace TsxWorkbench.Analysis

open Syntax Text Number

/-! ## Wrappers -/

/-- an expression is another one with no more than so many wrappers around it -/
def Wraps (most : Nat) (n core : Node) : Prop := n.wrappers ≤ most ∧ n.bare = core

variable {k most : Nat} {n core : Node}

theorem bare_unwrapAtMost (k : Nat) (n : Node) : (unwrapAtMost k n).bare = n.bare := by
  induction k generalizing n with
  | zero => rfl
  | succ k ih =>
    cases n with
    | wrapped _ _ inner _ => exact ih inner
    | _ => rfl

theorem wrappers_unwrapAtMost (k : Nat) (n : Node) : (unwrapAtMost k n).wrappers = n.wrappers - k := by
  induction k generalizing n with
  | zero => rfl
  | succ k ih =>
    cases n with
    | wrapped _ _ inner _ => exact (ih inner).trans (Nat.add_sub_add_right _ 1 _).symm
    | _ => exact (Nat.zero_sub _).symm

theorem eq_bare_of_wrappers (h : n.wrappers = 0) : n.bare = n := by
  cases n with
  | wrapped => cases h
  | _ => rfl

/-- **Wrappers.** What is found under the wrappers of an expression is what they stand around. -/
theorem unwrapAtMost_eq_iff (hcore : core.wrappers = 0) : unwrapAtMost k n = core ↔ Wraps k n core := by
  constructor
  · rintro rfl
    rw [wrappers_unwrapAtMost] at hcore
    refine ⟨Nat.sub_eq_zero_iff_le.1 hcore, ?_⟩
    rw [← bare_unwrapAtMost k n, eq_bare_of_wrappers (by rw [wrappers_unwrapAtMost, hcore])]
  · rintro ⟨hle, rfl⟩
    rw [← bare_unwrapAtMost k n]
    exact (eq_bare_of_wrappers (by rw [wrappers_unwrapAtMost, Nat.sub_eq_zero_of_le hle])).symm

theorem unwrap_eq_iff (hcore : core.wrappers = 0) : unwrap n = core ↔ Wraps walkDepth n core :=
  unwrapAtMost_eq_iff hcore

/-! ## Additions -/

/-- what is added up: texts, numbers, and sums of those -/
inductive Addition where
  | text (s : String)
  | number (x : Binary64)
  | plus (a b : Addition)

/-- a sum in a run: numbers are added, anything else is put together as text -/
def Operand.plus : Operand → Operand → Operand
  | .number x, .number y => .number (x.add y)
  | a, b => .text (a.asText ++ b.asText)

def Operand.isNumber : Operand → Bool
  | .number _ => true
  | .text _ => false

theorem Operand.eq_text {a : Operand} (h : a.isNumber = false) : a = .text a.asText := by
  cases a with
  | text => rfl
  | number => cases h

theorem Operand.concat?_eq (a b : Operand) :
    a.concat? b = if a.isNumber && b.isNumber then none else some (a.plus b).asText := by
  cases a <;> cases b <;> rfl

theorem Operand.isNumber_plus (a b : Operand) : (a.plus b).isNumber = (a.isNumber && b.isNumber) := by
  cases a <;> cases b <;> rfl

namespace Addition

/-- value in a run -/
def value : Addition → Operand
  | text s => .text s
  | number x => .number x
  | plus a b => a.value.plus b.value

/-- number of sums in one another -/
def levels : Addition → Nat
  | plus a b => max a.levels b.levels + 1
  | _ => 0

def isNumber : Addition → Bool
  | number _ => true
  | _ => false

/-- whether some sum has two numbers for its operands -/
def addsNumbers : Addition → Bool
  | plus a b => (a.isNumber && b.isNumber) || (a.addsNumbers || b.addsNumbers)
  | _ => false

/-- what the reader makes of an operand: the value, if it is a number or the reader knows its text -/
def operand? (a : Addition) : Option Operand := if a.addsNumbers then none else some a.value

/-- what the reader makes of an addition: its value, if that is known to be a text -/
def text? (a : Addition) : Option String := if a.isNumber || a.addsNumbers then none else some a.value.asText

variable {a b : Addition}

theorem isNumber_plus (a b : Addition) : (plus a b).isNumber = false := rfl

theorem addsNumbers_plus (a b : Addition) :
    (plus a b).addsNumbers = ((a.isNumber && b.isNumber) || (a.addsNumbers || b.addsNumbers)) := rfl

/-- the value is a number if the expression is one: no sum is one that adds no two numbers -/
theorem isNumber_value (h : a.addsNumbers = false) : a.value.isNumber = a.isNumber := by
  induction a with
  | text => rfl
  | number => rfl
  | plus a b iha ihb =>
    simp only [addsNumbers_plus, Bool.or_eq_false_iff] at h
    obtain ⟨hone, ha, hb⟩ := h
    rw [value, Operand.isNumber_plus, iha ha, ihb hb, hone, isNumber_plus]

theorem operand?_of_not_isNumber (h : a.isNumber = false) : a.operand? = a.text?.map .text := by
  rw [operand?, text?, h, Bool.false_or]
  split
  · rfl
  · rename_i hadds
    have hvalue := isNumber_value (Bool.eq_false_iff.2 hadds)
    exact congrArg some (Operand.eq_text (hvalue.trans h))

/-- the reader knows the text of a sum from its operands -/
theorem text?_plus (a b : Addition) : (plus a b).text? =
    match a.operand?, b.operand? with
    | some a, some b => a.concat? b
    | _, _ => none := by
  simp only [text?, operand?, isNumber_plus, addsNumbers_plus, Bool.false_or, value]
  cases ha : a.addsNumbers with
  | true => simp
  | false =>
    cases hb : b.addsNumbers with
    | true => simp
    | false =>
      simp only [Bool.or_false, Bool.false_eq_true, if_false]
      rw [Operand.concat?_eq, isNumber_value ha, isNumber_value hb]

end Addition

/-! ## Expressions of additions -/

/-- an expression stands for an addition, with no more than so many wrappers in a row -/
inductive Spells (most : Nat) : Node → Addition → Prop
  | string {n : Node} {span : Span} {s : String} (h : Wraps most n (.strLit span s)) : Spells most n (.text s)
  | template {n : Node} {span : Span} {texts : List String} (h : Wraps most n (.template span texts [])) :
      Spells most n (.text (String.join texts))
  | number {n : Node} {span : Span} {x : Binary64} (h : Wraps most n (.numLit span x)) : Spells most n (.number x)
  | plus {n left right : Node} {span : Span} {a b : Addition} (h : Wraps most n (.binary span "+" left right))
      (hleft : Spells most left a) (hright : Spells most right b) : Spells most n (.plus a b)

variable {e : Addition} {s : String}

theorem unwrap_of_wrappers (h : n.wrappers = 0) : unwrap n = n :=
  (unwrap_eq_iff h).2 ⟨h ▸ Nat.zero_le _, eq_bare_of_wrappers h⟩

/-- wrappers around an expression that are taken off make no difference -/
theorem textWithin_of_wraps (h : Wraps walkDepth n core) (hcore : core.wrappers = 0) :
    textWithin k core = textWithin k n := by
  cases k with
  | zero => rfl
  | succ k => rw [textWithin, textWithin, (unwrap_eq_iff hcore).2 h, unwrap_of_wrappers hcore]

theorem operandWith_eq (h : Spells walkDepth n e) (htext : textWithin k n = e.text?) :
    operandWith (textWithin k) n = e.operand? := by
  unfold operandWith
  cases h with
  | number h => rw [(unwrap_eq_iff rfl).2 h]; rfl
  | string h | template h | plus h =>
    rw [(unwrap_eq_iff rfl).2 h, Addition.operand?_of_not_isNumber rfl, ← htext, ← textWithin_of_wraps h rfl]

/-- the text of an expression is what the reader makes of the addition it stands for -/
theorem textWithin_eq (h : Spells walkDepth n e) (hlevels : e.levels < k) : textWithin k n = e.text? := by
  induction h generalizing k with
  | string h | template h | number h =>
    obtain ⟨k, rfl⟩ := Nat.exists_eq_add_one.2 hlevels
    rw [textWithin, (unwrap_eq_iff rfl).2 h]
    rfl
  | @plus n left right span a b h hleft hright ihleft ihright =>
    rw [Addition.levels] at hlevels
    obtain ⟨k, rfl⟩ := Nat.exists_eq_add_one.2 (Nat.zero_lt_of_lt hlevels)
    have hl := operandWith_eq hleft (ihleft (by omega : a.levels < k))
    have hr := operandWith_eq hright (ihright (by omega : b.levels < k))
    rw [textWithin, (unwrap_eq_iff rfl).2 h, Addition.text?_plus, ← hl, ← hr]
    rfl

/-! ## Other operands -/

/-- parts of an expression, without the types that are asserted of it -/
def valueParts : Node → List Node
  | .wrapped _ _ inner _ => [inner]
  | n => n.children

/-- an expression has another one in it, at any depth -/
inductive Contains : Node → Node → Prop
  | self (n : Node) : Contains n n
  | part {n c m : Node} (hc : c ∈ valueParts n) (h : Contains c m) : Contains n m

/-- an operand that a text may be put together from: a string, a template without parts, a number or a sum, whatever
stands around it -/
def isAddend (n : Node) : Bool :=
  match n.bare with
  | .strLit .. => true
  | .numLit .. => true
  | .template _ _ parts => parts.isEmpty
  | .binary _ op _ _ => op == "+"
  | _ => false

variable {m : Node}

/-- what is no wrapper itself is found under the wrappers -/
theorem Contains.unwrapAtMost (h : Contains n m) (hm : m.wrappers = 0) (k : Nat) : Contains (unwrapAtMost k n) m := by
  induction k generalizing n with
  | zero => exact h
  | succ k ih =>
    cases n with
    | wrapped _ _ inner _ =>
      cases h with
      | self => cases hm
      | part hc h => exact ih (List.mem_singleton.1 hc ▸ h)
    | _ => exact h

theorem isAddend_unwrap (n : Node) : isAddend (unwrap n) = isAddend n := by
  rw [isAddend, unwrap, bare_unwrapAtMost, ← isAddend]

theorem isAddend_of_textWithin (h : textWithin k n = some s) : isAddend n = true := by
  cases k with
  | zero => cases h
  | succ k =>
    rw [← isAddend_unwrap]
    unfold textWithin at h
    split at h
    · rename_i heq
      rw [heq]
      rfl
    · rename_i heq
      rw [heq]
      unfold templateText? at h
      split at h
      · assumption
      · cases h
    · rename_i heq
      rw [heq]
      rfl
    · cases h

theorem isAddend_of_operandWith {a : Operand} (h : operandWith (textWithin k) n = some a) : isAddend n = true := by
  rw [← isAddend_unwrap]
  unfold operandWith at h
  split at h
  · rename_i heq
    rw [heq]
    rfl
  · obtain ⟨s, hs, -⟩ := Option.map_eq_some_iff.1 h
    exact isAddend_of_textWithin hs

/-- an expression with a known text has no other operand in a sum, at any depth -/
theorem isAddend_of_contains {span : Span} {left right : Node} (h : textWithin k n = some s)
    (hsum : Contains n (.binary span "+" left right)) : isAddend left = true ∧ isAddend right = true := by
  induction k generalizing n s with
  | zero => cases h
  | succ k ih =>
    have below {c : Node} {a : Operand} (hc : operandWith (textWithin k) c = some a)
        (hsum : Contains c (.binary span "+" left right)) : isAddend left = true ∧ isAddend right = true := by
      have hunder := hsum.unwrapAtMost rfl walkDepth
      unfold operandWith unwrap at hc
      split at hc
      · rename_i heq
        rw [heq] at hunder
        cases hunder with
        | part hpart => cases hpart
      · obtain ⟨s, hs, -⟩ := Option.map_eq_some_iff.1 hc
        exact ih hs hunder
    have hunder := hsum.unwrapAtMost rfl walkDepth
    unfold textWithin unwrap at h
    split at h
    · rename_i heq
      rw [heq] at hunder
      cases hunder with
      | part hpart => cases hpart
    · rename_i parts heq
      rw [heq] at hunder
      unfold templateText? at h
      split at h
      · rename_i hempty
        obtain rfl := List.isEmpty_iff.1 hempty
        cases hunder with
        | part hpart => cases hpart
      · cases h
    · rename_i left' right' heq
      rw [heq] at hunder
      split at h
      · rename_i a b hleft hright
        cases hunder with
        | self => exact ⟨isAddend_of_operandWith hleft, isAddend_of_operandWith hright⟩
        | part hpart hbelow =>
          simp only [valueParts, Node.children, List.mem_cons, List.not_mem_nil, or_false] at hpart
          rcases hpart with rfl | rfl
          · exact below hleft hbelow
          · exact below hright hbelow
      · cases h
    · cases h

/-- **Texts that the source tells.** An expression of strings, templates without parts, numbers and sums, with at most
`walkDepth` wrappers in a row and as many sums in one another, has a known text if and only if it is no number and adds
no two numbers; the text is its value. An expression with any other operand in a sum has none. -/
theorem staticText?_evaluates (n : Node) :
    (∀ e, Spells walkDepth n e → e.levels ≤ walkDepth →
      ((staticText? n).isSome = true ↔ e.isNumber = false ∧ e.addsNumbers = false) ∧
        ∀ s, staticText? n = some s → e.value = .text s) ∧
    ∀ span left right operand, Contains n (.binary span "+" left right) → operand = left ∨ operand = right →
      isAddend operand = false → staticText? n = none := by
  constructor
  · intro e h hlevels
    rw [staticText?, textWithin_eq h (Nat.lt_succ_of_le hlevels), Addition.text?]
    split
    · rename_i hor
      simp only [Option.isSome_none, Bool.false_eq_true, false_iff, reduceCtorEq, false_implies, implies_true, and_true]
      rintro ⟨hnumber, hadds⟩
      rw [hnumber, hadds] at hor
      cases hor
    · rename_i hor
      rw [Bool.not_eq_true, Bool.or_eq_false_iff] at hor
      refine ⟨by simp [hor], fun s hs => ?_⟩
      cases hs
      exact Operand.eq_text ((Addition.isNumber_value hor.2).trans hor.1)
  · intro span left right operand hsum hoperand hother
    cases h : staticText? n with
    | none => rfl
    | some s =>
      obtain ⟨hleft, hright⟩ := isAddend_of_contains h hsum
      rcases hoperand with rfl | rfl
      · exact absurd (hleft.symm.trans hother) (by decide)
      · exact absurd (hright.symm.trans hother) (by decide)

/-- `("a" + 1) + `b`` -/
def mixedSum : Node :=
  .binary ⟨0, 15⟩ "+"
    (.wrapped ⟨0, 9⟩ .parentheses (.binary ⟨1, 8⟩ "+" (.strLit ⟨1, 4⟩ "a") (.numLit ⟨7, 8⟩ (.ofNat 1))) [])
    (.template ⟨12, 15⟩ ["b"] [])

/-- what it adds -/
def mixedAddition : Addition := .plus (.plus (.text "a") (.number (.ofNat 1))) (.text (String.join ["b"]))

/-- `"a" + x` -/
def namedSum : Node := .binary ⟨0, 7⟩ "+" (.strLit ⟨0, 3⟩ "a") (.ident ⟨6, 7⟩ "x")

theorem spells_mixedSum : Spells walkDepth mixedSum mixedAddition := by
  have htext : Spells walkDepth (.strLit ⟨1, 4⟩ "a") (.text "a") := .string ⟨Nat.zero_le _, rfl⟩
  have hnumber : Spells walkDepth (.numLit ⟨7, 8⟩ (.ofNat 1)) (.number (.ofNat 1)) := .number ⟨Nat.zero_le _, rfl⟩
  exact .plus ⟨Nat.zero_le _, rfl⟩ (.plus ⟨by decide, rfl⟩ htext hnumber) (.template ⟨Nat.zero_le _, rfl⟩)

theorem staticText?_evaluates_mixed :
    ((staticText? mixedSum).isSome = true ∧ ∀ s, staticText? mixedSum = some s → mixedAddition.value = .text s) ∧
      staticText? namedSum = none := by
  obtain ⟨hknown, hvalue⟩ := (staticText?_evaluates mixedSum).1 mixedAddition spells_mixedSum (by decide)
  exact ⟨⟨hknown.2 ⟨rfl, rfl⟩, hvalue⟩,
    (staticText?_evaluates namedSum).2 _ _ _ (.ident ⟨6, 7⟩ "x") (.self _) (.inr rfl) rfl⟩

example : staticText? mixedSum = some "a1b" := by decide +kernel

end TsxWorkbench.Analysis
