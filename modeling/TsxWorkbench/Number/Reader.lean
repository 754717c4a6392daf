/-
Reading numbers from text. A decimal is an optional sign, digits with at most one point and at least one digit, and an
optional power of ten; the words inf, infinity and nan are read in any case. Whole numbers take digits only, unsigned
ones an optional plus sign.
-/
import TsxWorkbench.Number.Decimal

namespace TsxWorkbench.Number

/-- value of an ASCII digit in a base up to 36 -/
def digitValue? (base : Nat) (c : Char) : Option Nat :=
  let n := c.toNat
  let v :=
    if 48 ≤ n ∧ n ≤ 57 then n - 48
    else if 97 ≤ n ∧ n ≤ 122 then n - 87
    else if 65 ≤ n ∧ n ≤ 90 then n - 55
    else 36
  if v < base then some v else none

def isDigit (c : Char) : Bool := 48 ≤ c.toNat && c.toNat ≤ 57

def isHexDigit (c : Char) : Bool := (digitValue? 16 c).isSome

/-- value of a run of digits, which must not hold anything else -/
def digitsValue? (base : Nat) (cs : List Char) : Option Nat :=
  cs.foldl (fun acc c => match acc, digitValue? base c with
    | some n, some d => some (n * base + d)
    | _, _ => none) (some 0)

/-- a nonempty run of digits -/
def natural? (base : Nat) (cs : List Char) : Option Nat := if cs.isEmpty then none else digitsValue? base cs

/-- a nonempty run of decimal digits after an optional plus sign, at most a bound -/
def unsigned? (bound : Nat) (cs : List Char) : Option Nat :=
  let digits := match cs with
    | '+' :: rest => rest
    | _ => cs
  match natural? 10 digits with
  | some n => if n ≤ bound then some n else none
  | none => none

/-- a nonempty run of decimal digits after an optional sign, in 64 bits -/
def signed64? (cs : List Char) : Option Int :=
  match cs with
  | '-' :: rest => match natural? 10 rest with
    | some n => if n ≤ Nat.pow 2 63 then some (-(n : Int)) else none
    | none => none
  | _ => (unsigned? (Nat.pow 2 63 - 1) cs).map Int.ofNat

/-- ASCII letters in lower case -/
def lowerAscii (cs : List Char) : List Char :=
  cs.map fun c => if 65 ≤ c.toNat ∧ c.toNat ≤ 90 then Char.ofNat (c.toNat + 32) else c

def exponent? (cs : List Char) : Option Int :=
  match cs with
  | '-' :: rest => (natural? 10 rest).map fun n => -(n : Int)
  | '+' :: rest => (natural? 10 rest).map Int.ofNat
  | _ => (natural? 10 cs).map Int.ofNat

def magnitude? (negative : Bool) (cs : List Char) : Option Binary64 :=
  let whole := cs.takeWhile isDigit
  let afterWhole := cs.dropWhile isDigit
  let fraction := match afterWhole with
    | '.' :: rest => rest.takeWhile isDigit
    | _ => []
  let afterFraction := match afterWhole with
    | '.' :: rest => rest.dropWhile isDigit
    | _ => afterWhole
  if (whole ++ fraction).isEmpty then none
  else match digitsValue? 10 (whole ++ fraction) with
    | none => none
    | some n => match afterFraction with
      | [] => some (.ofDecimal negative n (-(fraction.length : Int)))
      | c :: rest =>
        if c = 'e' ∨ c = 'E' then (exponent? rest).map fun e => .ofDecimal negative n (e - (fraction.length : Int))
        else none

/-- a double from its decimal text -/
def decimal? (cs : List Char) : Option Binary64 :=
  let negative := match cs with
    | '-' :: _ => true
    | _ => false
  let body := match cs with
    | '-' :: rest => rest
    | '+' :: rest => rest
    | _ => cs
  let word := lowerAscii body
  if word = "inf".toList ∨ word = "infinity".toList then some (.infinite negative)
  else if word = "nan".toList then some .nan
  else magnitude? negative body

/-! ## Numbers as a script prints them -/

namespace Binary64

/-- a whole number held to 64 bits -/
def saturate64 (n : Int) : Int := max (-Int.pow 2 63) (min n (Int.pow 2 63 - 1))

/-- text of a number in a script: whole numbers below 10^21 as integers of 64 bits, all others as their shortest
text -/
def scriptText (x : Binary64) : List Char :=
  match x.toInt? with
  | some n => if n.natAbs < Nat.pow 10 21 then (toString (saturate64 n)).toList else x.plain
  | none => x.plain

end Binary64

end TsxWorkbench.Number
