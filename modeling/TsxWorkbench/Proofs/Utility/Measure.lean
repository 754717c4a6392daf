/-
What a CSS value denotes. A value is a number, or a length in units whose sizes the page decides; it is written as one
literal, as the call of a function whose value the page decides as well, or as a sum, product, least or greatest of
such in the brackets of a mathematical function. The text is cut into tokens, character by character (`tokens?`), and
the tokens are worked off on a stack with a frame for each open bracket (`work?`). What denotes nothing is no number and
no length: keywords, several values in a row, sums of numbers and lengths, and products of lengths.

- `work?_below`: what brackets hold is worked off in the same way inside of other brackets.
- `measure?_minus`: a literal without a sign denotes the opposite behind a minus sign.
- `measure?_calc`: any value denotes the opposite in the product with -1.
- `measure?_integer`: the text of a whole number denotes it.
-/
import Mathlib.Algebra.Order.Field.Rat
import Mathlib.Data.Int.Cast.Lemmas
import TsxWorkbench.Proofs.Number.ScriptText
import TsxWorkbench.Utility.Stylesheet

namespace TsxWorkbench.Utility

open Number

/-! ## Quantities -/

/-- a product of a number and lengths: a number has the power 0, a length the power 1 -/
@[ext]
structure Quantity (K : Type) where
  size : K
  power : Int
deriving DecidableEq, Repr

section

variable {K : Type} [Field K]

namespace Quantity

instance : Neg (Quantity K) := ⟨fun q => ⟨-q.size, q.power⟩⟩

def number (x : K) : Quantity K := ⟨x, 0⟩

def mul (p q : Quantity K) : Quantity K := ⟨p.size * q.size, p.power + q.power⟩

def div? [DecidableEq K] (p q : Quantity K) : Option (Quantity K) :=
  if q.size = 0 then none else some ⟨p.size / q.size, p.power - q.power⟩

/-- two quantities of one power, joined -/
def join? (f : K → K → K) (p q : Quantity K) : Option (Quantity K) :=
  if p.power = q.power then some ⟨f p.size q.size, p.power⟩ else none

@[simp] theorem size_neg (q : Quantity K) : (-q).size = -q.size := rfl

@[simp] theorem power_neg (q : Quantity K) : (-q).power = q.power := rfl

theorem one_mul (q : Quantity K) : (number 1).mul q = q := by simp [number, mul]

theorem mul_neg_one (q : Quantity K) : q.mul (-number 1) = -q := by
  apply Quantity.ext
  · simp [number, mul]
  · simp [number, mul]

end Quantity

/-- sizes that a page decides: those of units, and the values of functions that are not mathematical -/
structure Sizes (K : Type) where
  unit : List Char → Option K
  call : List Char → Option (Quantity K)

/-! ## Literals -/

variable {cs v : List Char}

/-- a character of a name, or of an escape in it -/
def isNamePart (c : Char) : Bool := isPlainInSelector c || c = '\\'

/-- a name, which starts with neither a digit nor a minus sign and a digit -/
def isName : List Char → Bool
  | [] => false
  | '-' :: c :: cs => (isNamePart c && !isDigit c) && cs.all isNamePart
  | c :: cs => (isNamePart c && !isDigit c && c != '-') && cs.all isNamePart

/-- a power of ten at the start, if there is one, and what follows -/
def powerOfTen (cs : List Char) : Int × List Char :=
  match cs with
  | [] => (0, [])
  | c :: rest =>
    let sign := rest.takeWhile fun d => d = '-' || d = '+'
    let text := sign ++ (rest.drop sign.length).takeWhile isDigit
    match exponent? text with
    | some e => if c = 'e' ∨ c = 'E' then (e, rest.drop text.length) else (0, cs)
    | none => (0, cs)

/-- a decimal without a sign, and what follows -/
def unsignedDecimal? (K : Type) [Field K] (cs : List Char) : Option (K × List Char) :=
  let whole := cs.takeWhile isDigit
  let after := cs.dropWhile isDigit
  let places := match after with
    | '.' :: rest => rest.takeWhile isDigit
    | _ => []
  let tail := powerOfTen (if places.isEmpty then after else after.drop (places.length + 1))
  (natural? 10 (whole ++ places)).map fun n => ((n : K) * 10 ^ (tail.1 - places.length), tail.2)

/-- a number, or a length in a unit of the page, without a sign -/
def unsignedLiteral? (sizes : Sizes K) (cs : List Char) : Option (Quantity K) :=
  match unsignedDecimal? K cs with
  | none => none
  | some (x, []) => some (.number x)
  | some (x, unit) =>
    if isName unit ∨ unit = ['%'] then (sizes.unit unit).map fun size => ⟨x * size, 1⟩ else none

def literal? (sizes : Sizes K) : List Char → Option (Quantity K)
  | '-' :: cs => (unsignedLiteral? sizes cs).map Neg.neg
  | '+' :: cs => unsignedLiteral? sizes cs
  | cs => unsignedLiteral? sizes cs

theorem exists_numeric (h : startsNumeric v = true) : ∃ c rest, v = c :: rest ∧ isNumeric c = true := by
  cases v with
  | nil => cases h
  | cons c rest => exact ⟨c, rest, rfl, h⟩

theorem ne_sign_of_isNumeric {c : Char} (h : isNumeric c = true) : c ≠ '-' ∧ c ≠ '+' := by
  constructor
  · rintro rfl
    cases h
  · rintro rfl
    cases h

theorem literal?_numeric (sizes : Sizes K) (h : startsNumeric v = true) :
    literal? sizes v = unsignedLiteral? sizes v := by
  obtain ⟨c, rest, rfl, hc⟩ := exists_numeric h
  obtain ⟨hminus, hplus⟩ := ne_sign_of_isNumeric hc
  simp [literal?, hminus, hplus]

theorem literal?_minus (sizes : Sizes K) (h : startsNumeric v = true) :
    literal? sizes ('-' :: v) = (literal? sizes v).map Neg.neg := by
  rw [literal?_numeric sizes h]
  rfl

theorem startsNumeric_toDigits (n : Nat) : startsNumeric (Nat.toDigits 10 n) = true := by
  have hnumeric := (positional_toDigits n).numeric
  cases hcs : Nat.toDigits 10 n with
  | nil => exact absurd hcs hnumeric.nonempty
  | cons c cs => exact hnumeric.chars c (hcs ▸ List.mem_cons_self)

/-- digits are the number that they spell -/
theorem literal?_digits (sizes : Sizes K) (n : Nat) :
    literal? sizes (Nat.toDigits 10 n) = some (.number (n : K)) := by
  have hdigits : ∀ c ∈ Nat.toDigits 10 n, isDigit c = true := fun _ hc => isDigit_of_mem_toDigits hc
  have hnatural : natural? 10 (Nat.toDigits 10 n) = some n := by
    rw [natural?, if_neg (by simp [Nat.toDigits_ne_nil]), digitsValue?_toDigits]
  have hdecimal : unsignedDecimal? K (Nat.toDigits 10 n) = some ((n : K), []) := by
    simp [unsignedDecimal?, List.takeWhile_eq_self_iff.2 hdigits, List.dropWhile_eq_nil_iff.2 hdigits, hnatural,
      powerOfTen]
  rw [literal?_numeric sizes (startsNumeric_toDigits n), unsignedLiteral?, hdecimal]

/-! ## Tokens -/

/-- functions of arguments, and brackets alone -/
inductive MathFunction where
  | brackets
  | calculation
  | least
  | greatest
  | clamp
deriving DecidableEq, Repr

def mathFunctions : List (List Char × MathFunction) :=
  [("calc".toList, .calculation), ("min".toList, .least), ("max".toList, .greatest), ("clamp".toList, .clamp)]

inductive Token where
  | opening (function : MathFunction)
  | closing
  | comma
  | sign (minus : Bool)
  | factor (divides : Bool)
  | word (text : List Char)
  | call (text : List Char)
deriving DecidableEq, Repr

/-- what has been read of a token; of a comment whether the last character was a star, and of a call the number of
brackets that are open inside -/
inductive Lexing where
  | between
  | word (text : List Char)
  | slash
  | comment (star : Bool)
  | call (depth : Nat) (text : List Char)
deriving DecidableEq, Repr

def isSpace (c : Char) : Bool := [' ', '\t', '\n', '\r', '\x0c'].contains c

def isWordChar (c : Char) : Bool := !isSpace c && !(['(', ')', ',', '*', '/'].contains c)

/-- a sign alone joins terms -/
def wordToken (word : List Char) : Token :=
  if word = ['+'] then .sign false else if word = ['-'] then .sign true else .word word

/-- tokens that a character gives between tokens -/
def Lexing.start (c : Char) : List Token × Lexing :=
  if c = '(' then ([.opening .brackets], .between)
  else if c = ')' then ([.closing], .between)
  else if c = ',' then ([.comma], .between)
  else if c = '*' then ([.factor false], .between)
  else if c = '/' then ([], .slash)
  else if isSpace c then ([], .between)
  else ([], .word [c])

/-- an opening bracket right after a word -/
def Lexing.openBracket? (word : List Char) : Option (List Token × Lexing) :=
  match mathFunctions.lookup (lowerAscii word) with
  | some function => some ([.opening function], .between)
  | none => if isName word then some ([], .call 0 (word ++ ['('])) else none

/-- tokens that a character gives -/
def Lexing.next? : Lexing → Char → Option (List Token × Lexing)
  | .between, c => some (start c)
  | .word w, c =>
    if isWordChar c then some ([], .word (w ++ [c]))
    else if c = '(' then openBracket? w
    else some (wordToken w :: (start c).1, (start c).2)
  | .slash, c => if c = '*' then some ([], .comment false) else some (.factor true :: (start c).1, (start c).2)
  | .comment star, c => some ([], if star && c = '/' then .between else .comment (c = '*'))
  | .call depth text, c =>
    if c = '(' then some ([], .call (depth + 1) (text ++ [c]))
    else if c ≠ ')' then some ([], .call depth (text ++ [c]))
    else match depth with
      | 0 => some ([.call (text ++ [c])], .between)
      | depth + 1 => some ([], .call depth (text ++ [c]))

/-- tokens that the end of the text gives -/
def Lexing.finish? : Lexing → Option (List Token)
  | .between => some []
  | .word w => some [wordToken w]
  | _ => none

def tokensFrom? (l : Lexing) : List Char → Option (List Token)
  | [] => l.finish?
  | c :: cs => (l.next? c).bind fun n => (tokensFrom? n.2 cs).map (n.1 ++ ·)

def tokens? (cs : List Char) : Option (List Token) := tokensFrom? .between cs

variable {ts : List Token}

/-- a blank ends what has been read before it -/
theorem tokensFrom?_append_space {l : Lexing} (h : tokensFrom? l v = some ts) (cs : List Char) :
    tokensFrom? l (v ++ ' ' :: cs) = (tokens? cs).map (ts ++ ·) := by
  induction v generalizing l ts with
  | nil =>
    cases l with
    | between =>
      cases h
      simp [tokensFrom?, Lexing.next?, Lexing.start, isSpace, tokens?]
    | word w =>
      cases h
      simp [tokensFrom?, Lexing.next?, Lexing.start, isSpace, isWordChar, tokens?]
    | slash | comment | call => cases h
  | cons c v ih =>
    rw [tokensFrom?] at h
    obtain ⟨n, hn, hrest⟩ := Option.bind_eq_some_iff.1 h
    obtain ⟨us, hus, rfl⟩ := Option.map_eq_some_iff.1 hrest
    rw [List.cons_append, tokensFrom?, hn, Option.bind_some, ih hus, Option.map_map]
    simp only [Function.comp_def, List.append_assoc]

theorem tokensFrom?_word_cons {w : List Char} {c : Char} (hc : isWordChar c = true) :
    tokensFrom? (.word w) (c :: cs) = tokensFrom? (.word (w ++ [c])) cs := by
  rw [tokensFrom?, Lexing.next?, if_pos hc, Option.bind_some]
  simp

theorem tokens?_word_cons {c : Char} (hc : isWordChar c = true) :
    tokens? (c :: cs) = tokensFrom? (.word [c]) cs := by
  have hstart : Lexing.start c = ([], .word [c]) := by
    simp only [isWordChar, List.contains_cons, List.contains_nil, Bool.or_false, Bool.and_eq_true,
      Bool.not_eq_true', Bool.or_eq_false_iff, beq_eq_false_iff_ne] at hc
    obtain ⟨hspace, hopen, hclose, hcomma, hstar, hslash⟩ := hc
    simp [Lexing.start, hspace, hopen, hclose, hcomma, hstar, hslash]
  rw [tokens?, tokensFrom?, Lexing.next?, hstart, Option.bind_some]
  simp

theorem tokensFrom?_word {w : List Char} (h : ∀ c ∈ cs, isWordChar c = true) :
    tokensFrom? (.word w) cs = some [wordToken (w ++ cs)] := by
  induction cs generalizing w with
  | nil => rw [List.append_nil, tokensFrom?, Lexing.finish?]
  | cons c cs ih =>
    rw [List.forall_mem_cons] at h
    rw [tokensFrom?_word_cons h.1, ih h.2, List.append_assoc]
    rfl

/-- a word right before a bracket opens a mathematical function, if it names one -/
theorem tokens?_calc (cs : List Char) : tokens? ("calc(".toList ++ cs) =
    (tokens? cs).map (.opening .calculation :: ·) := by
  have hname : tokens? ("calc(".toList ++ cs) = tokensFrom? (.word "calc".toList) ('(' :: cs) := by
    rw [show "calc(".toList ++ cs = 'c' :: 'a' :: 'l' :: 'c' :: '(' :: cs from rfl, tokens?_word_cons (by decide),
      tokensFrom?_word_cons (by decide), tokensFrom?_word_cons (by decide), tokensFrom?_word_cons (by decide)]
    rfl
  rw [hname, tokensFrom?]
  rfl

/-! ## Words that start like a number -/

theorem code_of_isNumeric {c : Char} (h : isNumeric c = true) : c = '.' ∨ isDigit c = true ∧ c.toNat ≤ 57 := by
  simp only [isNumeric, Bool.or_eq_true, beq_iff_eq] at h
  rcases h with hdigit | hpoint
  · simp only [isDigit, Bool.and_eq_true, decide_eq_true_eq] at hdigit ⊢
    exact .inr ⟨hdigit, hdigit.2⟩
  · exact .inl hpoint

/-- a text that starts like a number names no function -/
theorem openBracket?_numeric (h : startsNumeric v = true) : Lexing.openBracket? v = none := by
  obtain ⟨c, rest, rfl, hc⟩ := exists_numeric h
  have hlower : lowerAscii (c :: rest) = c :: lowerAscii rest := by
    rcases code_of_isNumeric hc with rfl | ⟨-, hcode⟩
    · rfl
    · simp [lowerAscii, show ¬65 ≤ c.toNat by omega]
  have hlookup : mathFunctions.lookup (lowerAscii (c :: rest)) = none := by
    have hnames : ∀ row ∈ mathFunctions, row.1.head?.any isNumeric = false := by decide
    rw [List.lookup_eq_none_iff]
    intro row hrow
    rw [bne_iff_ne, hlower]
    intro hname
    have hhead := hnames row hrow
    rw [← hname, List.head?_cons, Option.any_some, hc] at hhead
    cases hhead
  have hname : isName (c :: rest) = false := by
    rcases code_of_isNumeric hc with rfl | ⟨hdigit, -⟩
    · rfl
    · unfold isName
      split
      · rfl
      · rename_i heq
        cases heq
        cases hdigit
      · rename_i heq
        cases heq
        simp [hdigit]
  rw [Lexing.openBracket?, hlookup, hname]
  rfl

theorem isWordChar_of_isNumeric {c : Char} (h : isNumeric c = true) : isWordChar c = true := by
  have hother (ds : List Char) (hds : ds.any isNumeric = false) : ds.contains c = false := by
    rw [← Bool.not_eq_true, List.contains_iff_mem]
    intro hmem
    exact List.any_eq_false.1 hds c hmem h
  rw [isWordChar, Bool.and_eq_true, Bool.not_eq_true', Bool.not_eq_true']
  exact ⟨hother _ (by decide), hother _ (by decide)⟩

theorem wordToken_numeric (h : startsNumeric v = true) :
    wordToken v = .word v ∧ wordToken ('-' :: v) = .word ('-' :: v) := by
  obtain ⟨c, rest, rfl, hc⟩ := exists_numeric h
  obtain ⟨hminus, hplus⟩ := ne_sign_of_isNumeric hc
  simp [wordToken, hminus, hplus]

/-- a word that starts like a number becomes a token of its own, and a minus sign before it a part of the token -/
theorem tokensFrom?_minus {w : List Char} (hw : startsNumeric w = true) (h : tokensFrom? (.word w) cs = some ts) :
    ∃ more us, startsNumeric (w ++ more) = true ∧ ts = .word (w ++ more) :: us ∧
      tokensFrom? (.word ('-' :: w)) cs = some (.word ('-' :: (w ++ more)) :: us) := by
  -- both words grow by the same characters until one ends them; after that the rest is the same
  induction cs generalizing w ts with
  | nil =>
    obtain ⟨htoken, hminus⟩ := wordToken_numeric hw
    cases h
    refine ⟨[], [], by rwa [List.append_nil], ?_, ?_⟩
    · rw [List.append_nil, htoken]
    · rw [List.append_nil, ← hminus]
      rfl
  | cons c cs ih =>
    rw [tokensFrom?] at h ⊢
    obtain ⟨n, hn, hrest⟩ := Option.bind_eq_some_iff.1 h
    obtain ⟨us, hus, rfl⟩ := Option.map_eq_some_iff.1 hrest
    by_cases hc : isWordChar c = true
    · have hlonger : startsNumeric (w ++ [c]) = true := by
        obtain ⟨d, rest, rfl, hd⟩ := exists_numeric hw
        exact hd
      rw [Lexing.next?, if_pos hc] at hn ⊢
      cases hn
      obtain ⟨more, us', hmore, rfl, hminus⟩ := ih hlonger hus
      rw [List.append_assoc] at hmore hminus
      refine ⟨c :: more, us', hmore, ?_, ?_⟩
      · rw [List.append_assoc]
        rfl
      · rw [Option.bind_some, List.cons_append, hminus]
        rfl
    · obtain ⟨htoken, hminus⟩ := wordToken_numeric hw
      rw [Lexing.next?, if_neg hc] at hn ⊢
      have hbracket : c ≠ '(' := by
        rintro rfl
        rw [if_pos rfl, openBracket?_numeric hw] at hn
        cases hn
      rw [if_neg hbracket] at hn ⊢
      cases hn
      refine ⟨[], (Lexing.start c).1 ++ us, by rwa [List.append_nil], ?_, ?_⟩
      · rw [List.append_nil, htoken, List.cons_append]
      · rw [List.append_nil, Option.bind_some, hus, hminus, Option.map_some, List.cons_append]

/-- a text that starts like a number starts with a word, to which a minus sign before it belongs -/
theorem tokens?_minus (hv : startsNumeric v = true) (h : tokens? v = some ts) :
    ∃ w us, startsNumeric w = true ∧ ts = .word w :: us ∧ tokens? ('-' :: v) = some (.word ('-' :: w) :: us) := by
  obtain ⟨c, cs, rfl, hc⟩ := exists_numeric hv
  have hword := isWordChar_of_isNumeric hc
  rw [tokens?_word_cons hword] at h
  obtain ⟨more, us, hw, rfl, hminus⟩ := tokensFrom?_minus (w := [c]) hc h
  refine ⟨[c] ++ more, us, hw, rfl, ?_⟩
  rw [tokens?_word_cons (by decide), tokensFrom?_word_cons hword]
  exact hminus

/-! ## Work on a stack -/

/-- what has been read in a bracket: the arguments that are complete, the terms of the current one, and the factor that
the next operand is multiplied with or divides -/
structure Frame (K : Type) where
  function : MathFunction
  arguments : List (Quantity K)
  sum : Option (Quantity K)
  left : Quantity K
  divides : Bool

def Frame.start (function : MathFunction) (arguments : List (Quantity K)) : Frame K :=
  ⟨function, arguments, none, .number 1, false⟩

/-- open brackets with the inmost first, and the operand that was read last -/
structure Work (K : Type) where
  frames : List (Frame K)
  operand : Option (Quantity K)

variable [LinearOrder K]

def MathFunction.value? : MathFunction → List (Quantity K) → Option (Quantity K)
  | .brackets, [q] => some q
  | .calculation, [q] => some q
  | .least, q :: qs => qs.foldlM (Quantity.join? min) q
  | .greatest, q :: qs => qs.foldlM (Quantity.join? max) q
  | .clamp, [low, middle, high] => (middle.join? min high).bind (low.join? max)
  | _, _ => none

def Frame.product? (f : Frame K) (q : Quantity K) : Option (Quantity K) :=
  if f.divides then f.left.div? q else some (f.left.mul q)

def Frame.total? (f : Frame K) (q : Quantity K) : Option (Quantity K) :=
  (f.product? q).bind fun p => match f.sum with
    | none => some p
    | some s => s.join? (· + ·) p

/-- a token worked off; an operand stands alone, behind an operator or in front of one, and there are operators and
brackets alone only inside of functions -/
def work? (sizes : Sizes K) (s : Work K) (t : Token) : Option (Work K) :=
  match t, s.frames, s.operand with
  | .word w, fs, none => (literal? sizes w).map fun q => ⟨fs, some q⟩
  | .call text, fs, none => (sizes.call text).map fun q => ⟨fs, some q⟩
  | .opening function, fs, none =>
    if function = .brackets ∧ fs = [] then none else some ⟨.start function [] :: fs, none⟩
  | .sign minus, f :: fs, some q => (f.total? q).map fun total =>
      ⟨{ f with sum := some total, left := if minus then -.number 1 else .number 1, divides := false } :: fs, none⟩
  | .factor divides, f :: fs, some q => (f.product? q).map fun p =>
      ⟨{ f with left := p, divides := divides } :: fs, none⟩
  | .comma, f :: fs, some q => (f.total? q).map fun total =>
      ⟨.start f.function (f.arguments ++ [total]) :: fs, none⟩
  | .closing, f :: fs, some q => (f.total? q).bind fun total =>
      (f.function.value? (f.arguments ++ [total])).map fun value => ⟨fs, some value⟩
  | _, _, _ => none

theorem work?_word (sizes : Sizes K) (fs : List (Frame K)) (w : List Char) :
    work? sizes ⟨fs, none⟩ (.word w) = (literal? sizes w).map fun q => ⟨fs, some q⟩ := rfl

theorem work?_factor (sizes : Sizes K) (f : Frame K) (fs : List (Frame K)) (q : Quantity K) (divides : Bool) :
    work? sizes ⟨f :: fs, some q⟩ (.factor divides) =
      (f.product? q).map fun p => ⟨{ f with left := p, divides := divides } :: fs, none⟩ := rfl

theorem work?_closing (sizes : Sizes K) (f : Frame K) (fs : List (Frame K)) (q : Quantity K) :
    work? sizes ⟨f :: fs, some q⟩ .closing = (f.total? q).bind fun total =>
      (f.function.value? (f.arguments ++ [total])).map fun value => ⟨fs, some value⟩ := rfl

/-- the number or length that a value denotes -/
def measure? (sizes : Sizes K) (value : List Char) : Option (Quantity K) :=
  match (tokens? value).bind fun ts => ts.foldlM (work? sizes) ⟨[], none⟩ with
  | some ⟨[], some q⟩ => if q.power = 0 ∨ q.power = 1 then some q else none
  | _ => none

/-! ## Inside of brackets -/

variable {sizes : Sizes K} {s s' : Work K} {q : Quantity K}

/-- a token is worked off in the same way on top of other frames: it looks at the inmost one only -/
theorem work?_below {t : Token} (base : List (Frame K)) (h : work? sizes s t = some s') :
    work? sizes ⟨s.frames ++ base, s.operand⟩ t = some ⟨s'.frames ++ base, s'.operand⟩ := by
  obtain ⟨frames, operand⟩ := s
  unfold work? at h
  dsimp only at h ⊢
  split at h
  · obtain ⟨q, hq, rfl⟩ := Option.map_eq_some_iff.1 h
    simp [work?, hq]
  · obtain ⟨q, hq, rfl⟩ := Option.map_eq_some_iff.1 h
    simp [work?, hq]
  · split at h
    · cases h
    · rename_i function hinside
      cases h
      have hstill : ¬(function = .brackets ∧ frames ++ base = []) :=
        fun hboth => hinside ⟨hboth.1, (List.append_eq_nil_iff.1 hboth.2).1⟩
      exact if_neg hstill
  · obtain ⟨total, htotal, rfl⟩ := Option.map_eq_some_iff.1 h
    simp [work?, htotal]
  · obtain ⟨p, hp, rfl⟩ := Option.map_eq_some_iff.1 h
    simp [work?, hp]
  · obtain ⟨total, htotal, rfl⟩ := Option.map_eq_some_iff.1 h
    simp [work?, htotal]
  · obtain ⟨total, htotal, hvalue⟩ := Option.bind_eq_some_iff.1 h
    obtain ⟨value, hfound, rfl⟩ := Option.map_eq_some_iff.1 hvalue
    simp [work?, htotal, hfound]
  · cases h

/-- tokens are worked off in the same way on top of other frames -/
theorem foldlM_work?_below (base : List (Frame K)) (h : ts.foldlM (work? sizes) s = some s') :
    ts.foldlM (work? sizes) ⟨s.frames ++ base, s.operand⟩ = some ⟨s'.frames ++ base, s'.operand⟩ := by
  induction ts generalizing s with
  | nil =>
    cases h
    rfl
  | cons t ts ih =>
    rw [List.foldlM_cons] at h ⊢
    obtain ⟨next, hnext, hrest⟩ := Option.bind_eq_some_iff.1 h
    rw [work?_below base hnext]
    exact ih hrest

/-- outside of brackets nothing follows an operand -/
theorem eq_nil_of_operand (h : ts.foldlM (work? sizes) ⟨[], some q⟩ = some s) : ts = [] := by
  cases ts with
  | nil => rfl
  | cons t ts =>
    have hstuck : work? sizes ⟨[], some q⟩ t = none := by cases t <;> rfl
    rw [List.foldlM_cons, hstuck] at h
    cases h

/-- the tokens of a value leave its quantity and no open bracket -/
theorem measure?_eq_some_iff : measure? sizes v = some q ↔ (q.power = 0 ∨ q.power = 1) ∧
    ∃ ts, tokens? v = some ts ∧ ts.foldlM (work? sizes) ⟨[], none⟩ = some ⟨[], some q⟩ := by
  unfold measure?
  constructor
  · intro h
    split at h
    · rename_i p hp
      split at h
      · rename_i hpower
        cases h
        exact ⟨hpower, Option.bind_eq_some_iff.1 hp⟩
      · cases h
    · cases h
  · rintro ⟨hpower, ts, hts, hwork⟩
    rw [Option.bind_eq_some_iff.2 ⟨ts, hts, hwork⟩]
    exact if_pos hpower

/-- a value of one word denotes what the word does -/
theorem measure?_word {w : List Char} (hv : tokens? v = some [.word w]) : measure? sizes v = some q ↔
    (q.power = 0 ∨ q.power = 1) ∧ literal? sizes w = some q := by
  have hwork : [Token.word w].foldlM (work? sizes) ⟨[], none⟩ = (literal? sizes w).map fun q => ⟨[], some q⟩ := by
    rw [List.foldlM_cons, work?_word]
    cases literal? sizes w <;> rfl
  rw [measure?_eq_some_iff]
  refine and_congr_right fun _ => ?_
  constructor
  · rintro ⟨ts, hts, hq⟩
    rw [hv] at hts
    cases hts
    rw [hwork] at hq
    obtain ⟨p, hp, heq⟩ := Option.map_eq_some_iff.1 hq
    cases heq
    exact hp
  · intro hq
    exact ⟨_, hv, by rw [hwork, hq, Option.map_some]⟩

/-! ## The opposite -/

/-- **A literal without a sign** denotes the opposite behind a minus sign. -/
theorem measure?_minus (hv : startsNumeric v = true) (h : measure? sizes v = some q) :
    measure? sizes ('-' :: v) = some (-q) := by
  obtain ⟨hpower, ts, hts, hwork⟩ := measure?_eq_some_iff.1 h
  obtain ⟨w, us, hw, rfl, hminus⟩ := tokens?_minus hv hts
  rw [List.foldlM_cons] at hwork
  obtain ⟨next, hnext, hrest⟩ := Option.bind_eq_some_iff.1 hwork
  obtain ⟨p, hp, rfl⟩ := Option.map_eq_some_iff.1 hnext
  obtain rfl := eq_nil_of_operand hrest
  cases hrest
  refine measure?_eq_some_iff.2 ⟨hpower, _, hminus, ?_⟩
  have hliteral : literal? sizes ('-' :: w) = some (-q) := by
    rw [literal?_minus sizes hw, hp, Option.map_some]
  rw [List.foldlM_cons, work?_word, hliteral]
  rfl

/-- **Any value** denotes the opposite in the product with -1. -/
theorem measure?_calc (h : measure? sizes v = some q) :
    measure? sizes ("calc(".toList ++ v ++ " * -1)".toList) = some (-q) := by
  obtain ⟨hpower, ts, hts, hwork⟩ := measure?_eq_some_iff.1 h
  have htokens : tokens? ("calc(".toList ++ v ++ " * -1)".toList) =
      some (.opening .calculation :: (ts ++ [.factor false, .word "-1".toList, .closing])) := by
    have hend : tokens? "* -1)".toList = some [.factor false, .word "-1".toList, .closing] := by decide
    rw [List.append_assoc, tokens?_calc, show " * -1)".toList = ' ' :: "* -1)".toList from rfl, tokens?,
      tokensFrom?_append_space hts, hend]
    rfl
  -- the product is worked off inside of the brackets, where the value is the factor on the left
  let outer : Frame K := .start .calculation []
  let inner : Frame K := { outer with left := q }
  have hopen : work? sizes ⟨[], none⟩ (.opening .calculation) = some ⟨[outer], none⟩ := rfl
  have hvalue : ts.foldlM (work? sizes) ⟨[outer], none⟩ = some ⟨[outer], some q⟩ :=
    foldlM_work?_below [outer] hwork
  have htimes : work? sizes ⟨[outer], some q⟩ (.factor false) = some ⟨[inner], none⟩ := by
    have hproduct : outer.product? q = some q := congrArg some (Quantity.one_mul q)
    rw [work?_factor, hproduct]
    rfl
  have hone : work? sizes ⟨[inner], none⟩ (.word "-1".toList) = some ⟨[inner], some (-.number 1)⟩ := by
    have hliteral : literal? sizes "-1".toList = some (-.number ((1 : ℕ) : K)) :=
      (literal?_minus sizes (startsNumeric_toDigits 1)).trans (congrArg (Option.map Neg.neg) (literal?_digits sizes 1))
    rw [work?_word, hliteral, Nat.cast_one]
    rfl
  have hclose : work? sizes ⟨[inner], some (-.number 1)⟩ .closing = some ⟨[], some (-q)⟩ := by
    have htotal : inner.total? (-.number 1) = some (-q) := congrArg some (Quantity.mul_neg_one q)
    rw [work?_closing, htotal]
    rfl
  refine measure?_eq_some_iff.2 ⟨hpower, _, htokens, ?_⟩
  simp only [List.foldlM_cons, List.foldlM_append, List.foldlM_nil, hopen, hvalue, htimes, hone, hclose,
    Option.bind_eq_bind, Option.bind_some]
  rfl

/-- sizes in pixels where a percentage is one of 400 pixels -/
def pixelSizes : Sizes ℚ where
  unit name := [("px".toList, 1), ("rem".toList, 16), ("%".toList, 4)].lookup name
  call _ := none

example : measure? pixelSizes "calc(50% - 2px)".toList = some ⟨198, 1⟩ ∧
    measure? pixelSizes "calc(calc(50% - 2px) * -1)".toList = some ⟨-198, 1⟩ := by decide +kernel

theorem measure?_natural (sizes : Sizes K) (n : Nat) : measure? sizes (Nat.toDigits 10 n) = some (.number (n : K)) := by
  have hnumeric := (positional_toDigits n).numeric.chars
  have htokens : tokens? (Nat.toDigits 10 n) = some [.word (Nat.toDigits 10 n)] := by
    obtain ⟨c, cs, hcs, hc⟩ := exists_numeric (startsNumeric_toDigits n)
    rw [hcs, List.forall_mem_cons] at hnumeric
    rw [hcs, tokens?_word_cons (isWordChar_of_isNumeric hc),
      tokensFrom?_word fun d hd => isWordChar_of_isNumeric (hnumeric.2 d hd)]
    exact congrArg (fun t => some [t]) (wordToken_numeric (v := c :: cs) hc).1
  exact (measure?_word htokens).2 ⟨.inl rfl, literal?_digits sizes n⟩

/-- **The text of a whole number** denotes it. -/
theorem measure?_integer (sizes : Sizes K) (n : Int) : measure? sizes (toString n).toList = some (.number (n : K)) := by
  cases n with
  | ofNat k =>
    rw [toList_intText_ofNat, measure?_natural, Int.ofNat_eq_natCast, Int.cast_natCast]
  | negSucc k =>
    rw [toList_intText_negSucc, measure?_minus (startsNumeric_toDigits (k + 1)) (measure?_natural sizes (k + 1)),
      Int.cast_negSucc]
    rfl

end

end TsxWorkbench.Utility
