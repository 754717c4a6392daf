/-
Double precision numbers, in exact arithmetic. A finite number is a sign, a mantissa m and an exponent q, and stands
for m · 2^q; `ofRatio` is the double nearest to a quotient of naturals, a tie going to the even mantissa. Sum, product
and quotient are the exact results rounded once.
-/

namespace TsxWorkbench.Number

/-- a double: not a number, an infinity, or ±m · 2^q with m < 2^53 and -1074 ≤ q -/
inductive Binary64 where
  | nan
  | infinite (negative : Bool)
  | finite (negative : Bool) (m : Nat) (q : Int)
deriving DecidableEq, Repr, Inhabited

namespace Binary64

/-- least exponent, the one of the subnormal numbers -/
def minExponent : Int := -1074

/-- greatest exponent -/
def maxExponent : Int := 971

def zero : Binary64 := .finite false 0 minExponent

/-- numerator and denominator of num / den · 2^-e -/
def scaleDown (num den : Nat) (e : Int) : Nat × Nat :=
  if 0 ≤ e then (num, den * Nat.pow 2 e.toNat) else (num * Nat.pow 2 (-e).toNat, den)

/-- the integer nearest to num / den; a half goes to the even neighbour -/
def roundDiv (num den : Nat) : Nat :=
  let k := num / den
  let r := num % den
  if 2 * r < den then k else if den < 2 * r then k + 1 else if k % 2 = 0 then k else k + 1

/-- exponent that gives num / den a mantissa of 53 bits, or the least exponent -/
def exponentFor (num den : Nat) : Int :=
  let low := max ((Nat.log2 num : Int) - (Nat.log2 den : Int) - 53) minExponent
  let scaled := scaleDown num den low
  if Nat.pow 2 53 ≤ scaled.1 / scaled.2 then low + 1 else low

/-- the double nearest to ±num / den -/
def ofRatio (negative : Bool) (num den : Nat) : Binary64 :=
  if num = 0 then .finite negative 0 minExponent
  else
    let e := exponentFor num den
    let scaled := scaleDown num den e
    let m := roundDiv scaled.1 scaled.2
    let m' := if m = Nat.pow 2 53 then Nat.pow 2 52 else m
    let e' := if m = Nat.pow 2 53 then e + 1 else e
    if maxExponent < e' then .infinite negative else .finite negative m' e'

def ofNat (n : Nat) : Binary64 := ofRatio false n 1

def ofInt (n : Int) : Binary64 := ofRatio (n < 0) n.natAbs 1

/-- the double nearest to ±digits · 10^exponent; far exponents are settled without the power -/
def ofDecimal (negative : Bool) (digits : Nat) (exponent : Int) : Binary64 :=
  if digits = 0 then .finite negative 0 minExponent
  else
    let size : Int := (Nat.log2 digits : Int) / 3
    if 400 < exponent then .infinite negative
    else if exponent + size < -800 then .finite negative 0 minExponent
    else if 0 ≤ exponent then ofRatio negative (digits * Nat.pow 10 exponent.toNat) 1
    else ofRatio negative digits (Nat.pow 10 (-exponent).toNat)

/-- numerator and denominator of m · 2^q -/
def ratio (m : Nat) (q : Int) : Nat × Nat :=
  if 0 ≤ q then (m * Nat.pow 2 q.toNat, 1) else (m, Nat.pow 2 (-q).toNat)

def isFinite : Binary64 → Bool
  | .finite .. => true
  | _ => false

/-- zero of either sign -/
def isZero : Binary64 → Bool
  | .finite _ m _ => m == 0
  | _ => false

def neg : Binary64 → Binary64
  | .nan => .nan
  | .infinite s => .infinite !s
  | .finite s m q => .finite (!s) m q

/-- a finite number without a fraction, as an integer -/
def toInt? : Binary64 → Option Int
  | .finite s m q =>
    let r := ratio m q
    if r.1 % r.2 = 0 then some (if s then -((r.1 / r.2 : Nat) : Int) else (r.1 / r.2 : Nat)) else none
  | _ => none

/-- ±m over 2^1074, the common denominator of all doubles -/
def units : Bool → Nat → Int → Int
  | s, m, q => (if s then -1 else 1) * ((m * Nat.pow 2 (q - minExponent).toNat : Nat) : Int)

/-- exact sum, rounded once; a sum of zero is negative only if both parts are -/
def add : Binary64 → Binary64 → Binary64
  | .nan, _ => .nan
  | _, .nan => .nan
  | .infinite s, .infinite t => if s = t then .infinite s else .nan
  | .infinite s, .finite .. => .infinite s
  | .finite .., .infinite t => .infinite t
  | .finite s m q, .finite t n r =>
    let total := units s m q + units t n r
    if total = 0 then .finite (s && t && m == 0 && n == 0) 0 minExponent
    else ofRatio (total < 0) total.natAbs (Nat.pow 2 (-minExponent).toNat)

/-- exact product, rounded once -/
def mul : Binary64 → Binary64 → Binary64
  | .nan, _ => .nan
  | _, .nan => .nan
  | .infinite s, .infinite t => .infinite (s != t)
  | .infinite s, .finite t n _ => if n = 0 then .nan else .infinite (s != t)
  | .finite s m _, .infinite t => if m = 0 then .nan else .infinite (s != t)
  | .finite s m q, .finite t n r =>
    let a := ratio m q
    let b := ratio n r
    ofRatio (s != t) (a.1 * b.1) (a.2 * b.2)

/-- quotient by a whole number, rounded once -/
def divNat (x : Binary64) (n : Nat) : Binary64 :=
  match x with
  | .finite s m q => let r := ratio m q; ofRatio s r.1 (r.2 * n)
  | other => other

/-- numerical equality: both zeros are equal and nothing equals what is not a number -/
def equal : Binary64 → Binary64 → Bool
  | .nan, _ => false
  | _, .nan => false
  | .infinite s, .infinite t => s == t
  | .finite s m q, .finite t n r => units s m q == units t n r
  | _, _ => false

end Binary64

end TsxWorkbench.Number
