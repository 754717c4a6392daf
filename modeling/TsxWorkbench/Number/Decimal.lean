/-
Decimal text of doubles. `shortest` gives the fewest digits that read back as the same double and of those the
nearest; `plain` writes them positionally, never with an exponent; `fixed` rounds the exact binary value to a number
of places, a half going to the even digit.
-/
import TsxWorkbench.Number.Binary64

namespace TsxWorkbench.Number

/-- digits · 10^exponent -/
structure Decimal where
  digits : Nat
  exponent : Int
deriving DecidableEq, Repr

namespace Decimal

/-- num / den against digits · 10^exponent, as a pair of naturals in the same unit -/
def against (num den : Nat) (d : Decimal) : Nat × Nat :=
  if 0 ≤ d.exponent then (num, d.digits * Nat.pow 10 d.exponent.toNat * den)
  else (num * Nat.pow 10 (-d.exponent).toNat, d.digits * den)

/-- interval of the reals that round to m · 2^q, as numerators over one denominator; the ends belong to it iff m is
even. The part below a power of two is half as wide. -/
structure Interval where
  low : Nat
  value : Nat
  high : Nat
  den : Nat
  closed : Bool
deriving Repr

def interval (m : Nat) (q : Int) : Interval :=
  let below := if m = Nat.pow 2 52 ∧ Binary64.minExponent < q then 1 else 2
  let up (n : Nat) := (Binary64.ratio n (q - 2)).1
  ⟨up (4 * m - below), up (4 * m), up (4 * m + 2), (Binary64.ratio 1 (q - 2)).2, m % 2 = 0⟩

/-- a decimal that reads back as the double of the interval -/
def Interval.holds (i : Interval) (d : Decimal) : Bool :=
  let l := against i.low i.den d
  let h := against i.high i.den d
  if i.closed then l.1 ≤ l.2 && h.2 ≤ h.1 else l.1 < l.2 && h.2 < h.1

/-- distance of a decimal from the value of the interval, in units that depend on its exponent only -/
def Interval.distance (i : Interval) (d : Decimal) : Nat :=
  let v := against i.value i.den d
  (v.1 - v.2) + (v.2 - v.1)

/-- number of decimal digits of a natural, 1 for 0 -/
def digitCount (n : Nat) : Nat := (Nat.toDigits 10 n).length

/-- exponent of the leading digit of num / den > 0 -/
def leadingExponent (num den : Nat) : Int :=
  let guess : Int := (digitCount num : Int) - (digitCount den : Int)
  let v := against num den ⟨1, guess⟩
  if v.2 ≤ v.1 then guess else guess - 1

/-- the nearest of the two neighbours on the grid of n digits that reads back -/
def onGrid (i : Interval) (lead : Int) (n : Nat) : Option Decimal :=
  let e := lead - (n : Int) + 1
  let one := against i.value i.den ⟨1, e⟩
  let floor := one.1 / one.2
  let a : Decimal := ⟨floor, e⟩
  let b : Decimal := ⟨floor + 1, e⟩
  match i.holds a, i.holds b with
  | true, true =>
    if i.distance a < i.distance b then some a
    else if i.distance b < i.distance a then some b
    else if floor % 2 = 0 then some a else some b
  | true, false => some a
  | false, true => some b
  | false, false => none

/-- zeros at the end of the digits moved into the exponent -/
def strip : Nat → Decimal → Decimal
  | 0, d => d
  | fuel + 1, d => if d.digits ≠ 0 ∧ d.digits % 10 = 0 then strip fuel ⟨d.digits / 10, d.exponent + 1⟩ else d

/-- the fewest digits that read back as m · 2^q -/
def shortest (m : Nat) (q : Int) : Decimal :=
  if m = 0 then ⟨0, 0⟩
  else
    let i := interval m q
    let lead := leadingExponent i.value i.den
    strip 20 (((List.range 17).findSome? fun n => onGrid i lead (n + 1)).getD ⟨0, 0⟩)

/-- positional text of digits · 10^exponent -/
def positional (d : Decimal) : List Char :=
  let ds := Nat.toDigits 10 d.digits
  if 0 ≤ d.exponent then (if d.digits = 0 then ['0'] else ds ++ List.replicate d.exponent.toNat '0')
  else
    let places := (-d.exponent).toNat
    let padded := List.replicate (places + 1 - ds.length) '0' ++ ds
    padded.take (padded.length - places) ++ '.' :: padded.drop (padded.length - places)

end Decimal

namespace Binary64

def signed (negative : Bool) (text : List Char) : List Char := if negative then '-' :: text else text

/-- shortest text that reads back, without an exponent -/
def plain : Binary64 → List Char
  | .nan => "NaN".toList
  | .infinite s => signed s "inf".toList
  | .finite s m q => signed s (Decimal.shortest m q).positional

/-- text with a fixed number of places, rounded from the exact value -/
def fixed (places : Nat) : Binary64 → List Char
  | .nan => "NaN".toList
  | .infinite s => signed s "inf".toList
  | .finite s m q =>
    let r := ratio m q
    let n := roundDiv (r.1 * Nat.pow 10 places) r.2
    signed s (Decimal.positional ⟨n, -(places : Int)⟩)

/-- text of a double in a data file: the shortest digits, with a fraction or an exponent so that it reads as one;
positional from 10^-5 up to 10^16 -/
def dataText : Binary64 → List Char
  | .finite s m q =>
    let d := Decimal.shortest m q
    let ds := Nat.toDigits 10 d.digits
    let lead : Int := (ds.length : Int) + d.exponent
    if d.digits = 0 then signed s "0.0".toList
    else if 0 ≤ d.exponent ∧ lead ≤ 16 then signed s (d.positional ++ ".0".toList)
    else if -5 < lead ∧ lead ≤ 16 then signed s d.positional
    else
      let fraction := match ds with
        | [] => []
        | [c] => [c]
        | c :: rest => c :: '.' :: rest
      let power := lead - 1
      let sign := if power < 0 then ['-'] else []
      signed s (fraction ++ 'e' :: sign ++ Nat.toDigits 10 power.natAbs)
  | _ => "null".toList

end Binary64

end TsxWorkbench.Number
