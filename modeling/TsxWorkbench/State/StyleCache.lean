/-
Style sheets by the classes they were compiled from. The cache is emptied as a whole when its policy asks for it at the
entry of a new key. Limits on the number of classes hold always, the one on size only for what is newly compiled. The
compiler runs on a machine, so it may stop; then there is no style sheet, and nothing is kept.
-/
import TsxWorkbench.Config
import TsxWorkbench.Utility.Machine

namespace TsxWorkbench.State

open Text

/-- whether a cache of so many entries is emptied before the next one comes in -/
abbrev Eviction := Nat → Bool

/-- empties a cache that holds a number of entries already -/
def clearPast (threshold : Nat) : Eviction := fun size => threshold ≤ size

/-- entries with distinct keys -/
structure StyleCache where
  entries : List (List Char × List Char)
  eviction : Eviction

namespace StyleCache

def empty (eviction : Eviction) : StyleCache := ⟨[], eviction⟩

def get? (c : StyleCache) (key : List Char) : Option (List Char) := c.entries.lookup key

def size (c : StyleCache) : Nat := c.entries.length

def reset (c : StyleCache) : StyleCache := { c with entries := [] }

def contains (c : StyleCache) (key : List Char) : Bool := (c.get? key).isSome

/-- the cache with a key set; a new key first empties the cache if the policy asks for it -/
def insert (c : StyleCache) (key css : List Char) : StyleCache :=
  if c.contains key then { c with entries := c.entries.map fun e => if e.1 = key then (key, css) else e }
  else if c.eviction c.size then { c with entries := [(key, css)] }
  else { c with entries := c.entries ++ [(key, css)] }

end StyleCache

/-! ## Compiling through the cache -/

inductive StyleError where
  | tooManyCandidates (count limit : Nat)
  | tooLarge (size limit : Nat)
  | stopped (fault : Utility.Machine.Fault)
deriving DecidableEq, Repr

/-- text of an error; a compiler that stops leaves none -/
def StyleError.message? : StyleError → Option String
  | .tooManyCandidates count limit =>
    some ("Tailwind candidate set has " ++ toString count ++ " classes, above the configured limit of " ++
      toString limit ++ " (tailwind.maxCandidates)")
  | .tooLarge size limit =>
    some ("Compiled Tailwind CSS is " ++ toString size ++ " bytes, above the configured limit of " ++ toString limit ++
      " bytes (tailwind.maxCssBytes)")
  | .stopped _ => none

/-- a compiler of class lists to style sheets, on a machine -/
abbrev Compiler := List (List Char) → Utility.Machine.Run (List Char)

/-- answer of a cached compilation; `compiled` tells whether the compiler was run -/
structure Compilation where
  answer : Except StyleError (List Char)
  cache : StyleCache
  compiled : Bool

/-- style sheet of a list of classes within limits, from the cache if it holds one for the same list -/
def compileCached (compiler : Compiler) (cache : StyleCache) (limits : UtilityConfig) (classes : List (List Char)) :
    Compilation :=
  if limits.maxCandidates < classes.length then
    ⟨.error (.tooManyCandidates classes.length limits.maxCandidates), cache, false⟩
  else if classes.isEmpty then ⟨.ok [], cache, false⟩
  else
    let key := List.intercalate [' '] classes
    match cache.get? key with
    | some css => ⟨.ok css, cache, false⟩
    | none =>
      match compiler classes with
      | .error fault => ⟨.error (.stopped fault), cache, true⟩
      | .ok css =>
        if limits.maxCssBytes < byteLen css then ⟨.error (.tooLarge (byteLen css) limits.maxCssBytes), cache, true⟩
        else ⟨.ok css, cache.insert key css, true⟩

end TsxWorkbench.State
