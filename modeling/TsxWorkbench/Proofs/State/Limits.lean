/-
Calls to one cache of style sheets, each with limits of its own. What a call does is one of six things (`Served`). A
cache that served calls holds only what the compiler gives for their lists, each within the limit of the call that
brought it in (`stocked_after`, from the step `Stocked.run`).

- `answers_alone`: after any calls, a call answers as it does on an empty cache, and a refused one leaves the cache as
  it was. There is one exception: a sheet over the limit of the call is answered if an earlier call brought it in.
- `sheet_over_limit`: such an answer.
-/
import Mathlib.Data.List.Induction
import TsxWorkbench.Proofs.State.StyleCache

namespace TsxWorkbench.State

open Text

/-- a list of classes to compile, with the limits for it -/
structure Call where
  limits : UtilityConfig
  classes : List (List Char)

/-! ## One call -/

/-- what a call does: it is refused for the number of its classes, it has none, its sheet is there already, the compiler
stops, or the sheet is compiled and then either refused for its size or brought in -/
inductive Served (compiler : Compiler) (cache : StyleCache) (call : Call) : Compilation → Prop
  | crowded (hcount : call.limits.maxCandidates < call.classes.length) :
    Served compiler cache call
      ⟨.error (.tooManyCandidates call.classes.length call.limits.maxCandidates), cache, false⟩
  | vacant (hempty : call.classes = []) : Served compiler cache call ⟨.ok [], cache, false⟩
  | held (css : List Char) (hcount : call.classes.length ≤ call.limits.maxCandidates) (hne : call.classes ≠ [])
    (hheld : cache.get? (List.intercalate [' '] call.classes) = some css) :
    Served compiler cache call ⟨.ok css, cache, false⟩
  | stopped (fault : Utility.Machine.Fault) (hcount : call.classes.length ≤ call.limits.maxCandidates)
    (hne : call.classes ≠ []) (hnew : cache.get? (List.intercalate [' '] call.classes) = none)
    (hfault : compiler call.classes = .error fault) :
    Served compiler cache call ⟨.error (.stopped fault), cache, true⟩
  | oversized (css : List Char) (hcount : call.classes.length ≤ call.limits.maxCandidates) (hne : call.classes ≠ [])
    (hnew : cache.get? (List.intercalate [' '] call.classes) = none) (hcss : compiler call.classes = .ok css)
    (hsize : call.limits.maxCssBytes < byteLen css) :
    Served compiler cache call ⟨.error (.tooLarge (byteLen css) call.limits.maxCssBytes), cache, true⟩
  | compiled (css : List Char) (hcount : call.classes.length ≤ call.limits.maxCandidates) (hne : call.classes ≠ [])
    (hnew : cache.get? (List.intercalate [' '] call.classes) = none) (hcss : compiler call.classes = .ok css)
    (hsize : byteLen css ≤ call.limits.maxCssBytes) :
    Served compiler cache call ⟨.ok css, cache.insert (List.intercalate [' '] call.classes) css, true⟩

variable {compiler : Compiler} {cache : StyleCache} {call : Call} {css : List Char}

/-- a call to a cache -/
def Call.run (call : Call) (compiler : Compiler) (cache : StyleCache) : Compilation :=
  compileCached compiler cache call.limits call.classes

theorem Call.run_served (call : Call) (compiler : Compiler) (cache : StyleCache) :
    Served compiler cache call (call.run compiler cache) := by
  unfold Call.run compileCached
  split
  · rename_i hcount
    exact .crowded hcount
  rename_i hcount
  split
  · rename_i hempty
    exact .vacant (List.isEmpty_iff.1 hempty)
  rename_i hempty
  have hne : call.classes ≠ [] := by simpa using hempty
  dsimp only
  split
  · rename_i css hheld
    exact .held css (Nat.not_lt.1 hcount) hne hheld
  rename_i hnew
  cases hcss : compiler call.classes with
  | error fault => exact .stopped fault (Nat.not_lt.1 hcount) hne hnew hcss
  | ok css =>
    dsimp only
    split
    · rename_i hsize
      exact .oversized css (Nat.not_lt.1 hcount) hne hnew hcss hsize
    · rename_i hsize
      exact .compiled css (Nat.not_lt.1 hcount) hne hnew hcss (Nat.not_lt.1 hsize)

/-- the sheet of a call is there, though it is over the limit of the call -/
def Call.OverLimit (call : Call) (compiler : Compiler) (cache : StyleCache) : Prop :=
  call.classes.length ≤ call.limits.maxCandidates ∧ call.classes ≠ [] ∧
    cache.contains (List.intercalate [' '] call.classes) = true ∧
      ∃ css, compiler call.classes = .ok css ∧ call.limits.maxCssBytes < byteLen css

section

variable (hcount : call.classes.length ≤ call.limits.maxCandidates) (hne : call.classes ≠ [])

include hcount hne

/-- the answer of an empty cache to a call with classes, of which there are not too many -/
theorem Call.run_empty_answer (hcss : compiler call.classes = .ok css) (eviction : Eviction) :
    (call.run compiler (.empty eviction)).answer =
      if call.limits.maxCssBytes < byteLen css then .error (.tooLarge (byteLen css) call.limits.maxCssBytes)
      else .ok css := by
  have hempty : call.classes.isEmpty = false := by simpa using hne
  by_cases hsize : call.limits.maxCssBytes < byteLen css
  · simp [Call.run, compileCached, Nat.not_lt.2 hcount, hempty, hcss, hsize]
  · simp [Call.run, compileCached, Nat.not_lt.2 hcount, hempty, hcss, hsize]

/-- a compiler that stops does so on an empty cache -/
theorem Call.run_empty_stopped {fault : Utility.Machine.Fault} (hfault : compiler call.classes = .error fault)
    (eviction : Eviction) : (call.run compiler (.empty eviction)).answer = .error (.stopped fault) := by
  have hempty : call.classes.isEmpty = false := by simpa using hne
  simp [Call.run, compileCached, Nat.not_lt.2 hcount, hempty, hfault]

end

/-- a refused call leaves the cache as it was -/
theorem Served.cache_of_error {done : Compilation} {e : StyleError} (h : Served compiler cache call done)
    (he : done.answer = .error e) : done.cache = cache := by
  cases h with
  | crowded hcount => rfl
  | vacant hempty => cases he
  | held css hcount hne hheld => cases he
  | stopped fault hcount hne hnew hfault => rfl
  | oversized css hcount hne hnew hcss hsize => rfl
  | compiled css hcount hne hnew hcss hsize => cases he

/-! ## Many calls -/

/-- all that a cache holds is what the compiler gives for the list of some call, within the limit of that call -/
def Stocked (compiler : Compiler) (calls : List Call) (cache : StyleCache) : Prop :=
  cache.Holds fun classes css => compiler classes = .ok css ∧
    ∃ c ∈ calls, c.classes = classes ∧ byteLen css ≤ c.limits.maxCssBytes

/-- **One call keeps a cache stocked.** -/
theorem Stocked.run {calls : List Call} (h : Stocked compiler calls cache) (hcall : Unspaced call.classes) :
    Stocked compiler (calls ++ [call]) (call.run compiler cache).cache := by
  have hkept : Stocked compiler (calls ++ [call]) cache := by
    intro classes css hclasses hne hget
    obtain ⟨hcss, c, hc, hlist, hlimit⟩ := h classes css hclasses hne hget
    exact ⟨hcss, c, List.mem_append_left _ hc, hlist, hlimit⟩
  generalize hdone : call.run compiler cache = done
  have hserved : Served compiler cache call done := hdone ▸ call.run_served compiler cache
  cases hserved with
  | crowded hcount => exact hkept
  | vacant hempty => exact hkept
  | held css hcount hne hheld => exact hkept
  | stopped fault hcount hne hnew hfault => exact hkept
  | oversized css hcount hne hnew hcss hsize => exact hkept
  | compiled css hcount hne hnew hcss hsize =>
    exact hkept.insert hcall hne ⟨hcss, call, List.mem_append_right _ (List.mem_singleton_self call), rfl, hsize⟩

/-- an empty cache after calls, one after the other -/
def StyleCache.after (compiler : Compiler) (eviction : Eviction) (calls : List Call) : StyleCache :=
  calls.foldl (fun cache call => (call.run compiler cache).cache) (.empty eviction)

theorem StyleCache.after_concat (compiler : Compiler) (eviction : Eviction) (calls : List Call) (call : Call) :
    after compiler eviction (calls ++ [call]) = (call.run compiler (after compiler eviction calls)).cache := by
  rw [after, after, List.foldl_append]
  rfl

/-- **Any calls leave a cache stocked.** -/
theorem stocked_after (compiler : Compiler) (eviction : Eviction) (calls : List Call)
    (h : ∀ c ∈ calls, Unspaced c.classes) : Stocked compiler calls (.after compiler eviction calls) := by
  -- from the last call on, as the cache served them
  induction calls using List.reverseRecOn with
  | nil =>
    intro classes css _ _ hget
    cases hget
  | append_singleton calls call ih =>
    rw [List.forall_mem_append, List.forall_mem_singleton] at h
    rw [StyleCache.after_concat]
    exact (ih h.1).run h.2

/-! ## Answers -/

/-- a call to a stocked cache answers as it does on an empty one, unless its sheet is there over its limit -/
theorem Stocked.answer {calls : List Call} (h : Stocked compiler calls cache) (hcall : Unspaced call.classes)
    (hover : ¬call.OverLimit compiler cache) (eviction : Eviction) :
    (call.run compiler cache).answer = (call.run compiler (.empty eviction)).answer := by
  generalize hdone : call.run compiler cache = done
  have hserved : Served compiler cache call done := hdone ▸ call.run_served compiler cache
  cases hserved with
  | crowded hcount => simp [Call.run, compileCached, hcount]
  | vacant hempty => simp [Call.run, compileCached, hempty]
  | held css hcount hne hheld =>
    obtain ⟨hcss, -⟩ := h call.classes css hcall hne hheld
    have hsize : ¬call.limits.maxCssBytes < byteLen css := by
      intro hsize
      exact hover ⟨hcount, hne, Option.isSome_iff_exists.2 ⟨_, hheld⟩, css, hcss, hsize⟩
    rw [Call.run_empty_answer hcount hne hcss, if_neg hsize]
  | stopped fault hcount hne hnew hfault => rw [Call.run_empty_stopped hcount hne hfault]
  | oversized css hcount hne hnew hcss hsize => rw [Call.run_empty_answer hcount hne hcss, if_pos hsize]
  | compiled css hcount hne hnew hcss hsize =>
    rw [Call.run_empty_answer hcount hne hcss, if_neg (Nat.not_lt.2 hsize)]

/-- a call whose sheet is there over its limit gets the sheet all the same, and an empty cache refuses it -/
theorem Stocked.answer_over {calls : List Call} (h : Stocked compiler calls cache) (hcall : Unspaced call.classes)
    (hover : call.OverLimit compiler cache) (eviction : Eviction) : ∃ css, compiler call.classes = .ok css ∧
      (call.run compiler cache).answer = .ok css ∧
      (call.run compiler (.empty eviction)).answer = .error (.tooLarge (byteLen css) call.limits.maxCssBytes) ∧
      ∃ c ∈ calls, c.classes = call.classes ∧ byteLen css ≤ c.limits.maxCssBytes := by
  obtain ⟨hcount, hne, hcontains, css, hcss, hsize⟩ := hover
  obtain ⟨sheet, hheld⟩ := Option.isSome_iff_exists.1 hcontains
  obtain ⟨hsheet, c, hc, hlist, hlimit⟩ := h call.classes sheet hcall hne hheld
  obtain rfl : sheet = css := Except.ok.inj (hsheet.symm.trans hcss)
  have hempty : call.classes.isEmpty = false := by simpa using hne
  refine ⟨sheet, hcss, ?_, ?_, c, hc, hlist, hlimit⟩
  · simp [Call.run, compileCached, Nat.not_lt.2 hcount, hempty, hheld]
  · exact (Call.run_empty_answer hcount hne hcss eviction).trans (if_pos hsize)

/-- **Answers of calls with limits of their own.** After any calls to a cache, a call answers as it does on an empty
one and a refused call leaves the cache as it was, with one exception: if the cache holds the sheet of the list, which
an earlier call with a greater limit brought in, then it is answered though it is over the limit of this call. -/
theorem answers_alone (compiler : Compiler) (eviction : Eviction) (earlier : List Call) (call : Call)
    (h : ∀ c ∈ earlier ++ [call], Unspaced c.classes) :
    let cache := StyleCache.after compiler eviction earlier
    let done := call.run compiler cache
    let alone := call.run compiler (.empty eviction)
    (¬call.OverLimit compiler cache → done.answer = alone.answer) ∧
    (call.OverLimit compiler cache → ∃ css, compiler call.classes = .ok css ∧ done.answer = .ok css ∧
      alone.answer = .error (.tooLarge (byteLen css) call.limits.maxCssBytes) ∧
      ∃ c ∈ earlier, c.classes = call.classes ∧ byteLen css ≤ c.limits.maxCssBytes) ∧
    ∀ e, done.answer = .error e → done.cache = cache := by
  rw [List.forall_mem_append, List.forall_mem_singleton] at h
  have hstocked := stocked_after compiler eviction earlier h.1
  intro cache done alone
  refine ⟨fun hover => hstocked.answer h.2 hover eviction, fun hover => hstocked.answer_over h.2 hover eviction,
    fun e he => ?_⟩
  exact (call.run_served compiler cache).cache_of_error he

/-! ## One class -/

def padding : List Char := "p-4".toList

def paddingSheet : List Char := ".p-4 \x7b\n  padding: 1rem;\n\x7d\n".toList

/-- a class with the usual limits -/
def usualCall : Call := ⟨{}, [padding]⟩

/-- the same class with a limit of four bytes -/
def tightCall : Call := ⟨{ maxCssBytes := 4 }, [padding]⟩

section

open Utility.Machine (compile)

private theorem compile_padding : compile [padding] = .ok paddingSheet := by
  have hsheet : (compile [padding]).toOption = some paddingSheet := by decide +kernel
  cases hcompile : compile [padding] with
  | error fault =>
    rw [hcompile] at hsheet
    cases hsheet
  | ok css =>
    rw [hcompile] at hsheet
    exact congrArg Except.ok (Option.some.inj hsheet)

private theorem byteLen_paddingSheet : byteLen paddingSheet = 26 := by decide +kernel

private theorem after_usual : StyleCache.after compile (clearPast 8) [usualCall] =
    ⟨[(padding, paddingSheet)], clearPast 8⟩ := by
  simp [StyleCache.after, Call.run, compileCached, usualCall, compile_padding, byteLen_paddingSheet,
    StyleCache.insert, StyleCache.contains, StyleCache.empty, StyleCache.get?, StyleCache.size, clearPast]

/-- after the usual call the sheet of the tight one is there, over its limit -/
theorem answers_alone_tight :
    (∀ c ∈ [usualCall] ++ [tightCall], Unspaced c.classes) ∧
      tightCall.OverLimit compile (.after compile (clearPast 8) [usualCall]) ∧
      ∃ css, compile tightCall.classes = .ok css ∧
        (tightCall.run compile (.after compile (clearPast 8) [usualCall])).answer = .ok css := by
  have hunspaced : ∀ c ∈ [usualCall] ++ [tightCall], Unspaced c.classes := by decide
  have hover : tightCall.OverLimit compile (.after compile (clearPast 8) [usualCall]) := by
    refine ⟨by decide, by decide, ?_, paddingSheet, compile_padding, ?_⟩
    · rw [after_usual]
      decide
    · rw [tightCall, byteLen_paddingSheet]
      decide
  obtain ⟨css, hcss, hanswer, -⟩ := (answers_alone compile (clearPast 8) [usualCall] tightCall hunspaced).2.1 hover
  exact ⟨hunspaced, hover, css, hcss, hanswer⟩

/-- **A sheet over the limit.** After a call with the usual limits, the same class with a limit of four bytes is
answered by a sheet of 26 bytes; on an empty cache the call is refused. -/
theorem sheet_over_limit :
    (tightCall.run compile (.after compile (clearPast 8) [usualCall])).answer = .ok paddingSheet ∧
      byteLen paddingSheet = 26 ∧
      (tightCall.run compile (.empty (clearPast 8))).answer = .error (.tooLarge 26 4) := by
  refine ⟨?_, byteLen_paddingSheet, ?_⟩
  · rw [after_usual]
    rfl
  · rw [Call.run_empty_answer (by decide) (by decide) compile_padding, tightCall, byteLen_paddingSheet]
    rfl

end

end TsxWorkbench.State
