/-
Data values: what a literal of a snippet denotes, what an answer is made of, and their JSON text. Whole numbers that a
double holds exactly up to 2^53 - 1 are integers, every other finite number is a double; an object is a list of pairs.
-/
import TsxWorkbench.Number.Reader

namespace TsxWorkbench

open Number

/-- a JSON value -/
inductive Json where
  | null
  | bool (b : Bool)
  | int (n : Int)
  | float (x : Binary64)
  | string (s : String)
  | array (items : List Json)
  | object (fields : List (String × Json))
deriving Repr, Inhabited

namespace Json

/-! ## Equality -/

mutual

def beq : Json → Json → Bool
  | .null, .null => true
  | .bool a, .bool b => a == b
  | .int a, .int b => a == b
  | .float a, .float b => a == b
  | .string a, .string b => a == b
  | .array as, .array bs => beqItems as bs
  | .object as, .object bs => beqFields as bs
  | _, _ => false

def beqItems : List Json → List Json → Bool
  | [], [] => true
  | a :: as, b :: bs => a.beq b && beqItems as bs
  | _, _ => false

def beqFields : List (String × Json) → List (String × Json) → Bool
  | [], [] => true
  | (k, a) :: as, (l, b) :: bs => k == l && a.beq b && beqFields as bs
  | _, _ => false

end

instance : BEq Json := ⟨beq⟩

mutual

theorem eq_of_beq : ∀ {a b : Json}, a.beq b = true → a = b
  | .null, b, h => by cases b <;> simp_all [beq]
  | .bool _, b, h => by cases b <;> simp_all [beq]
  | .int _, b, h => by cases b <;> simp_all [beq]
  | .float _, b, h => by cases b <;> simp_all [beq]
  | .string _, b, h => by cases b <;> simp_all [beq]
  | .array as, b, h => by
    cases b with
    | array bs =>
      rw [beq] at h
      rw [eq_of_beqItems h]
    | _ => simp [beq] at h
  | .object as, b, h => by
    cases b with
    | object bs =>
      rw [beq] at h
      rw [eq_of_beqFields h]
    | _ => simp [beq] at h

theorem eq_of_beqItems : ∀ {as bs : List Json}, beqItems as bs = true → as = bs
  | [], [], _ => rfl
  | a :: as, b :: bs, h => by
    rw [beqItems, Bool.and_eq_true] at h
    rw [eq_of_beq h.1, eq_of_beqItems h.2]
  | [], _ :: _, h => by simp [beqItems] at h
  | _ :: _, [], h => by simp [beqItems] at h

theorem eq_of_beqFields : ∀ {as bs : List (String × Json)}, beqFields as bs = true → as = bs
  | [], [], _ => rfl
  | (k, a) :: as, (l, b) :: bs, h => by
    rw [beqFields, Bool.and_eq_true, Bool.and_eq_true, beq_iff_eq] at h
    rw [h.1.1, eq_of_beq h.1.2, eq_of_beqFields h.2]
  | [], _ :: _, h => by simp [beqFields] at h
  | _ :: _, [], h => by simp [beqFields] at h

end

mutual

theorem beq_refl : ∀ a : Json, a.beq a = true
  | .null => rfl
  | .bool _ | .int _ | .float _ | .string _ => by simp [beq]
  | .array as => by simp [beq, beqItems_refl as]
  | .object as => by simp [beq, beqFields_refl as]

theorem beqItems_refl : ∀ as : List Json, beqItems as as = true
  | [] => rfl
  | a :: as => by simp [beqItems, beq_refl a, beqItems_refl as]

theorem beqFields_refl : ∀ as : List (String × Json), beqFields as as = true
  | [] => rfl
  | (_, a) :: as => by simp [beqFields, beq_refl a, beqFields_refl as]

end

instance : LawfulBEq Json where
  rfl := beq_refl _
  eq_of_beq := eq_of_beq

instance : DecidableEq Json := instDecidableEqOfLawfulBEq


/-- value of a double: an integer if it is whole and at most 2^53 - 1 in magnitude, nothing if it is not finite -/
def ofNumber? (x : Binary64) : Option Json :=
  if !x.isFinite then none
  else match x.toInt? with
    | some n => if n.natAbs ≤ 9007199254740991 then some (.int n) else some (.float x)
    | none => some (.float x)

/-- the pair with a key, if there is one -/
def field? (key : String) : Json → Option Json
  | .object fields => (fields.find? fun p => p.1 == key).map Prod.snd
  | _ => none

/-- fields with a key set: in place if it is there, at the end if it is not -/
def setField (fields : List (String × Json)) (key : String) (value : Json) : List (String × Json) :=
  if fields.any (fun p => p.1 == key) then fields.map fun p => if p.1 == key then (key, value) else p
  else fields ++ [(key, value)]

def ofOption {α : Type} (f : α → Json) : Option α → Json
  | none => .null
  | some a => f a

def ofChars (cs : List Char) : Json := .string (String.ofList cs)

def ofNat (n : Nat) : Json := .int n

/-! ## Text -/

private def hexPair (n : Nat) : List Char :=
  let ds := Nat.toDigits 16 n
  List.replicate (2 - ds.length) '0' ++ ds

/-- a character inside a JSON string: quotes, backslashes and control characters are escaped, nothing else is -/
def escapeChar (c : Char) : List Char :=
  if c = '\x22' then ['\\', '\x22']
  else if c = '\\' then ['\\', '\\']
  else if c = '\x08' then ['\\', 'b']
  else if c = '\x0c' then ['\\', 'f']
  else if c = '\n' then ['\\', 'n']
  else if c = '\r' then ['\\', 'r']
  else if c = '\t' then ['\\', 't']
  else if c.toNat < 0x20 then ['\\', 'u', '0', '0'] ++ hexPair c.toNat
  else [c]

/-- a control character without a short form is escaped by the two digits of its number -/
theorem escapeChar_control {c : Char} (h : c.toNat < 0x20) (hshort : c ∉ ['\x08', '\x0c', '\n', '\r', '\t']) :
    escapeChar c = ['\\', 'u', '0', '0', (c.toNat / 16).digitChar, (c.toNat % 16).digitChar] := by
  have hpairs : ∀ n < 0x20, hexPair n = [(n / 16).digitChar, (n % 16).digitChar] := by decide
  have hquote : c ≠ '\x22' := by rintro rfl; exact absurd h (by decide)
  have hslash : c ≠ '\\' := by rintro rfl; exact absurd h (by decide)
  simp only [List.mem_cons, List.not_mem_nil, or_false, not_or] at hshort
  simp [escapeChar, hquote, hslash, hshort, h, hpairs _ h]

/-- a text between double quotes -/
def quote (cs : List Char) : List Char := '\x22' :: (cs.flatMap escapeChar ++ ['\x22'])

/-- a text with nothing to escape stands between the quotes as it is -/
theorem quote_plain {cs : List Char} (h : ∀ c ∈ cs, 0x20 ≤ c.toNat ∧ c ≠ '\x22' ∧ c ≠ '\\') :
    quote cs = '\x22' :: (cs ++ ['\x22']) := by
  have hplain : ∀ c ∈ cs, escapeChar c = [c] := by
    intro c hc
    obtain ⟨hvisible, hquote, hslash⟩ := h c hc
    have hshort : ∀ d : Char, d.toNat < 0x20 → c ≠ d := by
      rintro d hd rfl
      omega
    unfold escapeChar
    rw [if_neg hquote, if_neg hslash, if_neg (hshort '\x08' (by decide)), if_neg (hshort '\x0c' (by decide)),
      if_neg (hshort '\n' (by decide)), if_neg (hshort '\r' (by decide)), if_neg (hshort '\t' (by decide)),
      if_neg (Nat.not_lt.2 hvisible)]
  rw [quote, List.flatMap_def, List.map_congr_left hplain, ← List.flatMap_def, List.flatMap_singleton']

/-- compact JSON text, as pieces from the last to the first -/
def renderOnto (out : List String) : Json → List String
  | .null => "null" :: out
  | .bool true => "true" :: out
  | .bool false => "false" :: out
  | .int n => toString n :: out
  | .float x => String.ofList x.dataText :: out
  | .string s => String.ofList (quote s.toList) :: out
  | .array items => "]" :: renderItems ("[" :: out) true items
  | .object fields => "\x7d" :: renderFields ("\x7b" :: out) true fields
where
  renderItems (out : List String) (first : Bool) : List Json → List String
    | [] => out
    | v :: rest => renderItems (renderOnto (if first then out else "," :: out) v) false rest
  renderFields (out : List String) (first : Bool) : List (String × Json) → List String
    | [] => out
    | (key, v) :: rest =>
      let start := if first then out else "," :: out
      renderFields (renderOnto (":" :: String.ofList (quote key.toList) :: start) v) false rest

/-- compact JSON text -/
def render (v : Json) : String := String.join (renderOnto [] v).reverse

end Json

end TsxWorkbench
