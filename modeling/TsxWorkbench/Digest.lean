/-
Digest of a source: two lanes of a multiply-and-fold hash over its UTF-8 bytes, the second fed with the length and the
first lane as well, as 16 little-endian bytes in the URL-safe base 64 alphabet without padding.
-/
import TsxWorkbench.Text.Position

namespace TsxWorkbench.Digest

/-! ## Hash of bytes -/

/-- low and high half of a product, folded together -/
def mix (x y : UInt64) : UInt64 :=
  let full := x.toNat * y.toNat
  UInt64.ofNat full ^^^ UInt64.ofNat (full / Nat.pow 2 64)

/-- little-endian number of some bytes -/
def littleEndian (bytes : List UInt8) : UInt64 :=
  bytes.foldr (fun b acc => acc * 256 + b.toUInt64) 0

/-- n bytes from position i on, little-endian -/
def wordAt (bytes : List UInt8) (i n : Nat) : UInt64 := littleEndian ((bytes.drop i).take n)

def seed0 : UInt64 := 0x243f6a8885a308d3

def seed1 : UInt64 := 0x13198a2e03707344

def fold0 : UInt64 := 0xa4093822299f31d0

/-- the two lanes after the full 16-byte chunks; the last 16 bytes are never a chunk of their own -/
def chunks : (fuel : Nat) → List UInt8 → UInt64 × UInt64 → UInt64 × UInt64
  | 0, _, s => s
  | fuel + 1, bytes, s =>
    if (bytes.drop 16).isEmpty then s
    else chunks fuel (bytes.drop 16) (s.2, mix (s.1 ^^^ wordAt bytes 0 8) (fold0 ^^^ wordAt bytes 8 8))

/-- hash of a run of bytes -/
def hashBytes (bytes : List UInt8) : UInt64 :=
  let n := bytes.length
  let s : UInt64 × UInt64 :=
    if n ≤ 16 then
      if 8 ≤ n then (seed0 ^^^ wordAt bytes 0 8, seed1 ^^^ wordAt bytes (n - 8) 8)
      else if 4 ≤ n then (seed0 ^^^ wordAt bytes 0 4, seed1 ^^^ wordAt bytes (n - 4) 4)
      else if 0 < n then
        (seed0 ^^^ wordAt bytes 0 1, seed1 ^^^ ((wordAt bytes (n - 1) 1 <<< 8) ||| wordAt bytes (n / 2) 1))
      else (seed0, seed1)
    else
      let t := chunks (n - 1) bytes (seed0, seed1)
      (t.1 ^^^ wordAt bytes (n - 16) 8, t.2 ^^^ wordAt bytes (n - 8) 8)
  mix s.1 s.2 ^^^ UInt64.ofNat n

/-! ## Lanes -/

/-- multiplier of a lane -/
def laneFactor : UInt64 := 0xf1357aea2e62a9c5

/-- one number added to a lane -/
def feed (state i : UInt64) : UInt64 := (state + i) * laneFactor

/-- value of a lane: its state rotated left by 26 bits -/
def finish (state : UInt64) : UInt64 := (state <<< 26) ||| (state >>> 38)

/-- the lane fed with the bytes alone -/
def primary (bytes : List UInt8) : UInt64 := finish (feed 0 (hashBytes bytes))

/-- the lane fed with the length, the bytes and the first lane -/
def secondary (bytes : List UInt8) : UInt64 :=
  finish (feed (feed (feed 0 (UInt64.ofNat bytes.length)) (hashBytes bytes)) (primary bytes))

/-! ## Text -/

def toBytes (x : UInt64) : List UInt8 := (List.range 8).map fun i => (x >>> (UInt64.ofNat (8 * i))).toUInt8

def alphabet : List Char := "ABCDEFGHIJKLMNOPQRSTUVWXYZabcdefghijklmnopqrstuvwxyz0123456789-_".toList

/-- letter of the low six bits of a number -/
def letter (n : Nat) : Char := alphabet.getD (n % 64) 'A'

/-- URL-safe base 64 without padding -/
def base64 : List UInt8 → List Char
  | [] => []
  | [a] => let n := a.toNat * 16; [letter (n / 64), letter n]
  | [a, b] => let n := (a.toNat * 256 + b.toNat) * 4; [letter (n / 4096), letter (n / 64), letter n]
  | a :: b :: c :: rest =>
    let n := (a.toNat * 256 + b.toNat) * 256 + c.toNat
    letter (n / 262144) :: letter (n / 4096) :: letter (n / 64) :: letter n :: base64 rest

/-- UTF-8 bytes of a text -/
def utf8 (cs : List Char) : List UInt8 := (String.ofList cs).toUTF8.toList

/-- digest of a source -/
def ofSource (cs : List Char) : List Char :=
  let bytes := utf8 cs
  base64 (toBytes (primary bytes) ++ toBytes (secondary bytes))

end TsxWorkbench.Digest
