/-
What the cache of style sheets holds. `get?_insert` says what a key is after an insertion. A cache that holds only what
the compiler gives goes on doing so, and answers through it are those of an empty cache (`compileCached_answer`): the
key of a list of classes tells the list, as no class holds a space.
-/
import TsxWorkbench.State.StyleCache

namespace TsxWorkbench.State

open Text

/-! ## Keys -/

/-- class tokens, none of which holds a space -/
def Unspaced (classes : List (List Char)) : Prop := ∀ w ∈ classes, ' ' ∉ w

instance : DecidablePred Unspaced := fun classes => inferInstanceAs (Decidable (∀ w ∈ classes, ' ' ∉ w))

/-- lists of class tokens with one key are the same -/
theorem eq_of_intercalate_eq {as bs : List (List Char)} (ha : Unspaced as) (hb : Unspaced bs) (hane : as ≠ [])
    (hbne : bs ≠ []) (h : List.intercalate [' '] as = List.intercalate [' '] bs) : as = bs := by
  rw [← List.splitOn_intercalate ' ' ha hane, h, List.splitOn_intercalate ' ' hb hbne]

/-! ## Entries -/

/-- lookup after the entries of a key were replaced -/
theorem lookup_replace {κ β : Type} [BEq κ] [LawfulBEq κ] [DecidableEq κ] (entries : List (κ × β)) (key : κ) (b : β)
    (k : κ) : (entries.map fun e => if e.1 = key then (key, b) else e).lookup k =
      if k = key then (entries.lookup key).map fun _ => b else entries.lookup k := by
  induction entries with
  | nil => simp
  | cons e rest ih =>
    obtain ⟨name, old⟩ := e
    by_cases hk : k = name
    · subst hk
      by_cases hkey : k = key
      · simp [hkey]
      · simp [hkey]
    · have hne : (k == name) = false := beq_eq_false_iff_ne.2 hk
      by_cases hname : name = key
      · subst hname
        simp [List.lookup_cons, hne, ih, hk]
      · have hne' : (key == name) = false := beq_eq_false_iff_ne.2 (Ne.symm hname)
        simp [List.lookup_cons, hne, hne', hname, ih]

namespace StyleCache

/-- what a key holds after an insertion: the new sheet if it is the key inserted, and nothing else if the cache was
emptied -/
theorem get?_insert (c : StyleCache) (key css k : List Char) : (c.insert key css).get? k =
    if k = key then some css
    else if c.contains key = false ∧ c.eviction c.size = true then none
    else c.get? k := by
  unfold insert
  split
  · rename_i hcontains
    obtain ⟨old, hold⟩ : ∃ old, c.entries.lookup key = some old := Option.isSome_iff_exists.1 hcontains
    rw [get?, lookup_replace, hold]
    simp [hcontains, get?]
  · rename_i hcontains
    have hnone : c.entries.lookup key = none := Option.not_isSome_iff_eq_none.1 hcontains
    split
    · rename_i hclear
      by_cases hk : k = key
      · simp [get?, hk]
      · have hne : (k == key) = false := beq_eq_false_iff_ne.2 hk
        simp [get?, List.lookup_cons, hne, hk, hcontains, hclear]
    · rename_i hclear
      by_cases hk : k = key
      · simp [get?, hk, List.lookup_append, hnone]
      · have hne : (k == key) = false := beq_eq_false_iff_ne.2 hk
        simp [get?, List.lookup_append, List.lookup_cons, hne, hk, hclear]

/-! ## Contents -/

/-- whatever the cache holds for a list of classes has a property -/
def Holds (c : StyleCache) (p : List (List Char) → List Char → Prop) : Prop :=
  ∀ classes css, Unspaced classes → classes ≠ [] → c.get? (List.intercalate [' '] classes) = some css → p classes css

/-- a sheet with the property may come in: no other list of classes has its key -/
theorem Holds.insert {c : StyleCache} {p : List (List Char) → List Char → Prop} (h : c.Holds p)
    {classes : List (List Char)} {css : List Char} (hclasses : Unspaced classes) (hne : classes ≠ [])
    (hcss : p classes css) : (c.insert (List.intercalate [' '] classes) css).Holds p := by
  intro others sheet hothers hothersne hget
  rw [get?_insert] at hget
  split at hget
  · rename_i hkey
    obtain rfl := eq_of_intercalate_eq hothers hclasses hothersne hne hkey
    cases hget
    exact hcss
  · split at hget
    · cases hget
    · exact h others sheet hothers hothersne hget

/-! ## Answers -/

/-- all that the cache holds for lists of classes is what a compiler gives for them, within a limit of bytes -/
def Faithful (compiler : Compiler) (limit : Nat) (c : StyleCache) : Prop :=
  ∀ classes css, Unspaced classes → classes ≠ [] → c.get? (List.intercalate [' '] classes) = some css →
    compiler classes = .ok css ∧ byteLen css ≤ limit

variable {compiler : Compiler} {limit : Nat} {c : StyleCache}

@[simp] theorem get?_empty (eviction : Eviction) (key : List Char) : (empty eviction).get? key = none := rfl

theorem faithful_empty (compiler : Compiler) (limit : Nat) (eviction : Eviction) :
    Faithful compiler limit (empty eviction) := by
  intro classes css _ _ h
  cases h

theorem Faithful.reset (c : StyleCache) : Faithful compiler limit c.reset := by
  intro classes css _ _ h
  cases h

/-- a compiled sheet within the limit may come in -/
theorem Faithful.insert (h : Faithful compiler limit c) {classes : List (List Char)} (hclasses : Unspaced classes)
    (hne : classes ≠ []) {css : List Char} (hcss : compiler classes = .ok css) (hlimit : byteLen css ≤ limit) :
    Faithful compiler limit (c.insert (List.intercalate [' '] classes) css) :=
  Holds.insert (p := fun classes css => compiler classes = .ok css ∧ byteLen css ≤ limit) h hclasses hne ⟨hcss, hlimit⟩

end StyleCache

/-- **Answers do not depend on the cache.** Through a cache that holds only what the compiler gives, the answer for a
list of classes is the one of an empty cache, and the cache still holds nothing else. -/
theorem compileCached_answer {compiler : Compiler} {limits : UtilityConfig} {cache : StyleCache}
    {classes : List (List Char)} (h : cache.Faithful compiler limits.maxCssBytes) (hclasses : Unspaced classes)
    (eviction : Eviction) :
    (compileCached compiler cache limits classes).answer =
      (compileCached compiler (.empty eviction) limits classes).answer ∧
    (compileCached compiler cache limits classes).cache.Faithful compiler limits.maxCssBytes := by
  unfold compileCached
  split
  · exact ⟨rfl, h⟩
  split
  · exact ⟨rfl, h⟩
  rename_i hne
  have hne : classes ≠ [] := by simpa using hne
  dsimp only
  rw [StyleCache.get?_empty]
  cases hget : cache.get? (List.intercalate [' '] classes) with
  | some css =>
    obtain ⟨hcss, hsize⟩ := h classes css hclasses hne hget
    dsimp only
    rw [hcss]
    dsimp only
    rw [if_neg (Nat.not_lt.2 hsize)]
    exact ⟨rfl, h⟩
  | none =>
    dsimp only
    cases hcss : compiler classes with
    | error fault => exact ⟨rfl, h⟩
    | ok css =>
      dsimp only
      split
      · exact ⟨rfl, h⟩
      · rename_i hsize
        exact ⟨rfl, h.insert hclasses hne hcss (Nat.not_lt.1 hsize)⟩

end TsxWorkbench.State
