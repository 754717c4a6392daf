/-
What a cache of style sheets keeps while it is used. An operation wipes a cache in two cases only (`Wipes`): it is a
reset, or it brings in a key that is not there and the policy asks for room at the size that the cache has.

- `get?_step_iff`: what one operation leaves under a key. `get?_run_iff`: after any operations a key has the sheet of
  its latest insertion, unless the cache was wiped since.
- `Distinct.step`, `distinct_run`: no key is there twice, so the size is the number of the keys that have a sheet.
- `size_step_le`, `size_run_le`: a cache that clears past a threshold holds no more entries than that, but it holds one
  even where the threshold is zero.
- `cache_retains`: all of this for a cache that started empty.
-/
import Mathlib.Data.Set.Card
import TsxWorkbench.Proofs.State.StyleCache

namespace TsxWorkbench.State

/-- what a cache is asked to do -/
inductive CacheOp where
  | get (key : List Char)
  | insert (key css : List Char)
  | reset
deriving DecidableEq, Repr

namespace StyleCache

/-- the cache after an operation; to ask for a key changes nothing -/
def step (c : StyleCache) : CacheOp → StyleCache
  | .get _ => c
  | .insert key css => c.insert key css
  | .reset => c.reset

def run (c : StyleCache) (ops : List CacheOp) : StyleCache := ops.foldl step c

theorem run_concat (c : StyleCache) (ops : List CacheOp) (op : CacheOp) : c.run (ops ++ [op]) = (c.run ops).step op :=
  List.foldl_append

/-- an operation that empties a cache -/
inductive Wipes (c : StyleCache) : CacheOp → Prop
  | reset : Wipes c .reset
  | insert {key css : List Char} (habsent : c.contains key = false) (hasked : c.eviction c.size = true) :
    Wipes c (.insert key css)

variable {c : StyleCache} {op : CacheOp} {key css : List Char}

theorem wipes_insert_iff :
    Wipes c (.insert key css) ↔ c.contains key = false ∧ c.eviction c.size = true := by
  constructor
  · rintro ⟨⟩
    exact ⟨‹_›, ‹_›⟩
  · rintro ⟨habsent, hasked⟩
    exact .insert habsent hasked

/-! ## One operation -/

/-- **What an operation leaves under a key.** The sheet that it brings in, or the one that was there if it neither
brings in another for the key nor wipes the cache. -/
theorem get?_step_iff (c : StyleCache) (op : CacheOp) (key css : List Char) : (c.step op).get? key = some css ↔
    op = .insert key css ∨ (∀ other, op ≠ .insert key other) ∧ ¬Wipes c op ∧ c.get? key = some css := by
  cases op with
  | get asked =>
    have hwipes : ¬Wipes c (.get asked) := nofun
    simp [step, hwipes]
  | reset =>
    have hwipes : Wipes c .reset := .reset
    simp [step, hwipes, reset, get?]
  | insert name sheet =>
    rw [step, get?_insert, wipes_insert_iff]
    by_cases hkey : key = name
    · subst hkey
      simp
    · have hne : ∀ other, CacheOp.insert name sheet ≠ .insert key other := by
        intro other h
        exact hkey (CacheOp.insert.inj h).1.symm
      rw [if_neg hkey, or_iff_right (hne css), and_iff_right hne]
      by_cases hwipes : c.contains name = false ∧ c.eviction c.size = true
      · simp [hwipes]
      · rw [if_neg hwipes, and_iff_right hwipes]

/-- an entry that is gone after an operation was wiped -/
theorem wipes_of_dropped (hthere : c.contains key = true) (hgone : (c.step op).contains key = false) :
    Wipes c op := by
  obtain ⟨css, hcss⟩ := Option.isSome_iff_exists.1 hthere
  have hnone : ∀ sheet, (c.step op).get? key ≠ some sheet := by
    intro sheet hsheet
    rw [contains, hsheet] at hgone
    cases hgone
  by_contra hwipes
  by_cases hinsert : ∃ other, op = .insert key other
  · obtain ⟨other, hop⟩ := hinsert
    exact hnone other ((get?_step_iff c op key other).2 (.inl hop))
  · exact hnone css ((get?_step_iff c op key css).2 (.inr ⟨not_exists.1 hinsert, hwipes, hcss⟩))

@[simp] theorem eviction_step (c : StyleCache) (op : CacheOp) : (c.step op).eviction = c.eviction := by
  cases op with
  | get asked => rfl
  | reset => rfl
  | insert name sheet =>
    simp only [step, StyleCache.insert]
    split_ifs <;> rfl

@[simp] theorem eviction_run (c : StyleCache) (ops : List CacheOp) : (c.run ops).eviction = c.eviction := by
  induction ops using List.reverseRecOn with
  | nil => rfl
  | append_singleton ops op ih => rw [run_concat, eviction_step, ih]

/-! ## Many operations -/

/-- the latest insertion of a key among operations gave it a sheet, and none after it wiped the cache -/
def Retained (c : StyleCache) (ops : List CacheOp) (key css : List Char) : Prop :=
  ∃ earlier later, ops = earlier ++ .insert key css :: later ∧ (∀ other, .insert key other ∉ later) ∧
    ∀ before op, before ++ [op] <+: later → ¬Wipes (c.run (earlier ++ .insert key css :: before)) op

/-- what is retained after one more operation -/
theorem retained_concat (c : StyleCache) (ops : List CacheOp) (op : CacheOp) (key css : List Char) :
    Retained c (ops ++ [op]) key css ↔ op = .insert key css ∨
      (∀ other, op ≠ .insert key other) ∧ ¬Wipes (c.run ops) op ∧ Retained c ops key css := by
  constructor
  · rintro ⟨earlier, later, hops, hlatest, hkept⟩
    -- the insertion is the last operation, or it stands before it
    rcases List.eq_nil_or_concat' later with rfl | ⟨later, last, rfl⟩
    · exact .inl (List.append_singleton_inj.1 hops).2
    · rw [← List.cons_append, ← List.append_assoc, List.append_singleton_inj] at hops
      obtain ⟨rfl, rfl⟩ := hops
      refine .inr ⟨fun other hop => hlatest other (by simp [hop]), hkept later op (List.prefix_refl _), ?_⟩
      refine ⟨earlier, later, rfl, fun other hmem => hlatest other (List.mem_append_left _ hmem),
        fun before next h => ?_⟩
      exact hkept before next (h.trans (List.prefix_append _ _))
  · rintro (rfl | ⟨hother, hwipes, earlier, later, rfl, hlatest, hkept⟩)
    · exact ⟨ops, [], rfl, by simp, by simp⟩
    · refine ⟨earlier, later ++ [op], by simp, fun other hmem => ?_, fun before next h => ?_⟩
      · rcases List.mem_append.1 hmem with hmem | hmem
        · exact hlatest other hmem
        · exact hother other (List.mem_singleton.1 hmem).symm
      · rcases List.prefix_concat_iff.1 h with h | h
        · obtain ⟨rfl, rfl⟩ := List.append_singleton_inj.1 h
          exact hwipes
        · exact hkept before next h

/-- **The latest insertion.** After any operations on an empty cache, a key has the sheet of its latest insertion unless
the cache was wiped since. -/
theorem get?_run_iff (eviction : Eviction) (ops : List CacheOp) (key css : List Char) :
    ((empty eviction).run ops).get? key = some css ↔ Retained (empty eviction) ops key css := by
  induction ops using List.reverseRecOn generalizing css with
  | nil => simp [run, Retained]
  | append_singleton ops op ih => rw [run_concat, get?_step_iff, retained_concat, ih]

/-! ## Size -/

/-- no key is there twice -/
def Distinct (c : StyleCache) : Prop := (c.entries.map Prod.fst).Nodup

theorem contains_iff : c.contains key = true ↔ key ∈ c.entries.map Prod.fst := by
  rw [contains, get?, List.lookup_isSome_iff, List.mem_map]
  simp only [beq_iff_eq, eq_comm (a := key)]

theorem Distinct.step (h : c.Distinct) (op : CacheOp) : (c.step op).Distinct := by
  cases op with
  | get asked => exact h
  | reset => exact List.nodup_nil
  | insert name sheet =>
    simp only [StyleCache.step, StyleCache.insert, Distinct]
    split_ifs with hthere hclear
    · -- the entry of the key is replaced where it stands
      have hkeys : ((c.entries.map fun e => if e.1 = name then (name, sheet) else e).map Prod.fst) =
          c.entries.map Prod.fst := by
        rw [List.map_map]
        refine List.map_congr_left fun e _ => ?_
        by_cases he : e.1 = name <;> simp [he]
      rwa [hkeys]
    · exact List.nodup_singleton _
    · rw [List.map_append, List.map_singleton, ← List.concat_eq_append, List.nodup_concat]
      exact ⟨fun hmem => hthere (contains_iff.2 hmem), h⟩

theorem distinct_run (eviction : Eviction) (ops : List CacheOp) : ((empty eviction).run ops).Distinct := by
  induction ops using List.reverseRecOn with
  | nil => exact List.nodup_nil
  | append_singleton ops op ih =>
    rw [run_concat]
    exact ih.step op

/-- the size of a cache is the number of keys that have a sheet -/
theorem Distinct.encard (h : c.Distinct) : {key | ∃ css, c.get? key = some css}.encard = c.size := by
  have hkeys : {key | ∃ css, c.get? key = some css} = ((c.entries.map Prod.fst).toFinset : Set (List Char)) := by
    ext key
    rw [Set.mem_ofPred_eq, ← Option.isSome_iff_exists, ← contains, contains_iff]
    simp
  rw [hkeys, Set.encard_coe_eq_coe_finsetCard, List.toFinset_card_of_nodup h, List.length_map, size]

/-- one operation keeps a cache that clears past a threshold within it -/
theorem size_step_le {threshold : Nat} (h : c.size ≤ max threshold 1) (heviction : c.eviction = clearPast threshold)
    (op : CacheOp) : (c.step op).size ≤ max threshold 1 := by
  cases op with
  | get asked => exact h
  | reset => exact Nat.zero_le _
  | insert name sheet =>
    simp only [step, StyleCache.insert]
    split_ifs with hthere hclear
    · simpa [size] using h
    · exact le_max_right _ _
    · rw [heviction, clearPast, decide_eq_true_eq, Nat.not_le] at hclear
      simp only [size, List.length_append, List.length_singleton] at hclear ⊢
      omega

theorem size_run_le (threshold : Nat) (ops : List CacheOp) :
    ((empty (clearPast threshold)).run ops).size ≤ max threshold 1 := by
  induction ops using List.reverseRecOn with
  | nil => exact Nat.zero_le _
  | append_singleton ops op ih =>
    rw [run_concat]
    exact size_step_le ih (eviction_run _ _) op

/-! ## A cache in use -/

/-- **What a cache retains.** After any operations on an empty cache, whatever its policy:
- a key has the sheet of its latest insertion, unless the cache was wiped since;
- an entry that the next operation drops is wiped by it, which takes a reset or a key that is not there and a policy
  that asks for room at the present size (`Wipes`);
- a wipe leaves nothing but what the operation itself brings in;
- the size is the number of keys that have a sheet;
- with a policy that clears past a threshold the size stays within the threshold, or is one if that is zero. -/
theorem cache_retains (eviction : Eviction) (ops : List CacheOp) :
    let cache := (empty eviction).run ops
    (∀ key css, cache.get? key = some css ↔ Retained (empty eviction) ops key css) ∧
    (∀ op key, cache.contains key = true → (cache.step op).contains key = false → Wipes cache op) ∧
    (∀ op, Wipes cache op → ∀ key css, (cache.step op).get? key = some css ↔ op = .insert key css) ∧
    {key | ∃ css, Retained (empty eviction) ops key css}.encard = cache.size ∧
    ∀ threshold, eviction = clearPast threshold → cache.size ≤ max threshold 1 := by
  intro cache
  refine ⟨get?_run_iff eviction ops, fun op key => wipes_of_dropped, fun op hwipes key css => ?_, ?_, ?_⟩
  · rw [get?_step_iff]
    simp [hwipes]
  · rw [← (distinct_run eviction ops).encard]
    simp only [get?_run_iff]
  · rintro threshold rfl
    exact size_run_le threshold ops

/-- a threshold of zero lets each new key in on its own, and the latest sheet of a key is the one that stays -/
example : ((empty (clearPast 0)).run
    [.insert ['a'] ['1'], .insert ['b'] ['2'], .insert ['b'] ['3'], .get ['a']]).entries = [(['b'], ['3'])] := by
  decide

end StyleCache

end TsxWorkbench.State
