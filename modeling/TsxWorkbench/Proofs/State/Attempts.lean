/-
When a loader makes an attempt, and what it answers when it makes none. A log is kept beside the loader: it notes when
each attempt ended and with what, and a reset empties it (`trials`). Whether a call made an attempt is read off the
count of attempts, so the log owes nothing to the state of the loader. The two agree after any calls (`Agrees.step`,
`Agrees.run`): an idle loader has made no attempt since the last reset, a ready one has made one that succeeded, as its
last, and a failed one only attempts that failed. No loader is left loading.

- `calls_answered`: after any calls, a call makes an attempt just if the log has no value and no failure younger than
  the cooldown; otherwise it answers by the value, or by the latest failure and the time that is left.

Times need not be in order. A failure that ended after the call has age 0, and with a cooldown an attempt is made only
once the one before it is that old, so the latest failure is the youngest.
-/
import Mathlib.Data.List.Basic
import TsxWorkbench.State.Loader

namespace TsxWorkbench.State

variable {α : Type}

/-- what a loader is asked to do -/
inductive LoaderCall where
  | get
  | reset
deriving DecidableEq, Repr

/-- an attempt that was made: when it ended, and with what -/
structure Trial (α : Type) where
  endMs : Nat
  result : Except LoadError α

namespace Loader

/-- the loader after a call at a time -/
def step (l : Loader α) (call : Nat × LoaderCall) : Loader α :=
  match call.2 with
  | .get => (l.get call.1).2
  | .reset => l.reset

def run (l : Loader α) (calls : List (Nat × LoaderCall)) : Loader α := calls.foldl step l

/-- a call at a time makes an attempt -/
def Attempts (l : Loader α) (nowMs : Nat) : Prop := (l.get nowMs).2.attempts = l.attempts + 1

instance (l : Loader α) (nowMs : Nat) : Decidable (l.Attempts nowMs) := inferInstanceAs (Decidable (_ = _))

/-- the attempt that is made next, if it begins at a time -/
def nextTrial (l : Loader α) (nowMs : Nat) : Trial α :=
  ⟨nowMs + (l.factory l.attempts).durationMs, l.result (l.factory l.attempts).outcome⟩

/-- the log after a call -/
def note (l : Loader α) (log : List (Trial α)) (call : Nat × LoaderCall) : List (Trial α) :=
  match call.2 with
  | .get => if l.Attempts call.1 then log ++ [l.nextTrial call.1] else log
  | .reset => []

/-- attempts since the last reset, the first one first, after calls to a loader with a log -/
def trialsFrom (l : Loader α) (log : List (Trial α)) : List (Nat × LoaderCall) → List (Trial α)
  | [] => log
  | call :: rest => (l.step call).trialsFrom (l.note log call) rest

def trials (l : Loader α) (calls : List (Nat × LoaderCall)) : List (Trial α) := l.trialsFrom [] calls

variable {l : Loader α} {log : List (Trial α)} {nowMs : Nat}

/-! ## One call -/

/-- a call for which something is held answers that and changes nothing -/
theorem get_of_held {r : Except LoadError α} (h : l.held? nowMs = some r) :
    l.get nowMs = (r, l) ∧ ¬l.Attempts nowMs := by
  have hget : l.get nowMs = (r, l) := by rw [get, h]
  refine ⟨hget, fun hattempts => ?_⟩
  rw [Attempts, hget] at hattempts
  exact Nat.succ_ne_self _ hattempts.symm

/-- a call for which nothing is held makes the next attempt, and the loader settles with its result -/
theorem get_of_unheld (h : l.held? nowMs = none) :
    l.get nowMs = ((l.nextTrial nowMs).result,
      l.start.settle (l.nextTrial nowMs).result (l.nextTrial nowMs).endMs) ∧ l.Attempts nowMs := by
  have hget : l.get nowMs = ((l.nextTrial nowMs).result,
      l.start.settle (l.nextTrial nowMs).result (l.nextTrial nowMs).endMs) := by rw [get, h]; rfl
  refine ⟨hget, ?_⟩
  rw [Attempts, hget]
  cases (l.nextTrial nowMs).result <;> rfl

/-- an error that an attempt ends with, and no report of an earlier one -/
def Direct (e : LoadError) : Prop := ∀ backend remaining cause, e ≠ .coolingDown backend remaining cause

theorem direct_of_result {outcome : Outcome α} {e : LoadError} (h : l.result outcome = .error e) : Direct e := by
  cases outcome with
  | value a => cases h
  | error message => cases h; exact nofun
  | lost => cases h; exact nofun
  | timeout => cases h; exact nofun

/-- the settings of a loader stay as they are -/
theorem settings_step (l : Loader α) (call : Nat × LoaderCall) :
    (l.step call).backend = l.backend ∧ (l.step call).cooldownMs = l.cooldownMs := by
  obtain ⟨nowMs, _ | _⟩ := call
  · cases hheld : l.held? nowMs with
    | some r => rw [step, (get_of_held hheld).1]; exact ⟨rfl, rfl⟩
    | none =>
      rw [step, (get_of_unheld hheld).1]
      cases (l.nextTrial nowMs).result <;> exact ⟨rfl, rfl⟩
  · exact ⟨rfl, rfl⟩

theorem settings_run (l : Loader α) (calls : List (Nat × LoaderCall)) :
    (l.run calls).backend = l.backend ∧ (l.run calls).cooldownMs = l.cooldownMs := by
  induction calls generalizing l with
  | nil => exact ⟨rfl, rfl⟩
  | cons call rest ih =>
    obtain ⟨hbackend, hcooldown⟩ := settings_step l call
    exact ⟨(ih (l.step call)).1.trans hbackend, (ih (l.step call)).2.trans hcooldown⟩

/-! ## The log -/

/-- all attempts of a log failed -/
def AllFailed (log : List (Trial α)) : Prop := ∀ t ∈ log, ∃ e, t.result = .error e

theorem AllFailed.concat (h : AllFailed log) (endMs : Nat) (e : LoadError) : AllFailed (log ++ [⟨endMs, .error e⟩]) :=
  List.forall_mem_append.2 ⟨h, List.forall_mem_singleton.2 ⟨e, rfl⟩⟩

/-- the state of a loader is what the attempts since the last reset have come to -/
inductive Agrees (l : Loader α) : List (Trial α) → Prop
  | idle (hstate : l.state = .idle) : Agrees l []
  | ready {earlier : List (Trial α)} {endMs : Nat} {a : α} (hstate : l.state = .ready a)
    (hearlier : AllFailed earlier) : Agrees l (earlier ++ [⟨endMs, .ok a⟩])
  | failed {earlier : List (Trial α)} {endMs : Nat} {e : LoadError} (hstate : l.state = .failed e endMs)
    (hdirect : Direct e) (hearlier : AllFailed earlier)
    (hlatest : 0 < l.cooldownMs → ∀ t ∈ earlier, t.endMs ≤ endMs) : Agrees l (earlier ++ [⟨endMs, .error e⟩])

theorem Agrees.ne_loading (h : Agrees l log) : l.state ≠ .loading := by
  cases h with
  | idle hstate => simp [hstate]
  | ready hstate hearlier => simp [hstate]
  | failed hstate hdirect hearlier hlatest => simp [hstate]

/-- where nothing is held, all attempts failed, and with a cooldown they all ended before now -/
theorem Agrees.unheld (h : Agrees l log) (hheld : l.held? nowMs = none) :
    AllFailed log ∧ ∀ t ∈ log, l.cooldownMs ≤ nowMs - t.endMs := by
  cases h with
  | idle hstate => exact ⟨by simp [AllFailed], by simp⟩
  | ready hstate hearlier => simp [held?, hstate] at hheld
  | @failed earlier endMs e hstate hdirect hearlier hlatest =>
    have hold : l.cooldownMs ≤ nowMs - endMs := by simpa [held?, hstate] using hheld
    refine ⟨hearlier.concat endMs e, List.forall_mem_append.2 ⟨fun t ht => ?_, List.forall_mem_singleton.2 hold⟩⟩
    rcases Nat.eq_zero_or_pos l.cooldownMs with hzero | hpos
    · omega
    · have hle := hlatest hpos t ht
      omega

/-- **One call keeps the state and the log in agreement.** -/
theorem Agrees.step (h : Agrees l log) (call : Nat × LoaderCall) : Agrees (l.step call) (l.note log call) := by
  obtain ⟨nowMs, _ | _⟩ := call
  · cases hheld : l.held? nowMs with
    | some r =>
      obtain ⟨hget, hnot⟩ := get_of_held hheld
      rw [Loader.step, note, hget]
      simpa only [if_neg hnot] using h
    | none =>
      obtain ⟨hget, hattempts⟩ := get_of_unheld hheld
      obtain ⟨hfailed, hold⟩ := h.unheld hheld
      rw [Loader.step, note, hget]
      simp only [if_pos hattempts]
      cases hresult : (l.nextTrial nowMs).result with
      | ok a =>
        have htrial : l.nextTrial nowMs = ⟨(l.nextTrial nowMs).endMs, .ok a⟩ := by rw [← hresult]
        rw [htrial]
        exact .ready rfl hfailed
      | error e =>
        have htrial : l.nextTrial nowMs = ⟨(l.nextTrial nowMs).endMs, .error e⟩ := by rw [← hresult]
        rw [htrial]
        refine .failed rfl (direct_of_result hresult) hfailed fun hpos t ht => ?_
        have hage : l.cooldownMs ≤ nowMs - t.endMs := hold t ht
        have hpos : 0 < l.cooldownMs := hpos
        show t.endMs ≤ nowMs + _
        omega
  · exact .idle rfl

theorem Agrees.run (h : Agrees l log) (calls : List (Nat × LoaderCall)) :
    Agrees (l.run calls) (l.trialsFrom log calls) := by
  induction calls generalizing l log with
  | nil => exact h
  | cons call rest ih => exact ih (h.step call)

/-! ## Answers -/

/-- an attempt since the last reset gave a value -/
def Loaded (log : List (Trial α)) (a : α) : Prop := ∃ t ∈ log, t.result = .ok a

/-- an attempt since the last reset failed, less than the cooldown ago -/
def Cooling (log : List (Trial α)) (cooldownMs nowMs : Nat) : Prop :=
  ∃ t ∈ log, (∃ e, t.result = .error e) ∧ nowMs - t.endMs < cooldownMs

/-- what a call at a time does, and answers, given the attempts since the last reset -/
structure Answers (backend : String) (cooldownMs : Nat) (log : List (Trial α)) (l : Loader α) (nowMs : Nat) :
    Prop where
  /-- an attempt is made just if there is no value and no failure younger than the cooldown -/
  attempts : l.Attempts nowMs ↔ (∀ a, ¬Loaded log a) ∧ ¬Cooling log cooldownMs nowMs
  /-- it is answered by its own result -/
  attempted : l.Attempts nowMs → (l.get nowMs).1 = (l.nextTrial nowMs).result
  /-- a value is given again, and nothing changes -/
  value : ∀ a, Loaded log a → l.get nowMs = (.ok a, l)
  /-- while a failure cools down, the latest one is answered, with the time that is left, and nothing changes; it is
  what an attempt ended with and no such answer itself -/
  cooling : (∀ a, ¬Loaded log a) → Cooling log cooldownMs nowMs → ∃ endMs cause remaining,
    log.getLast? = some ⟨endMs, .error cause⟩ ∧ Direct cause ∧
      l.get nowMs = (.error (.coolingDown backend remaining cause), l) ∧ remaining = cooldownMs - (nowMs - endMs) ∧
        0 < remaining ∧ remaining ≤ cooldownMs
  /-- nothing is left loading -/
  settled : l.state ≠ .loading ∧ (l.get nowMs).2.state ≠ .loading

theorem AllFailed.not_loaded (h : AllFailed log) (a : α) : ¬Loaded log a := by
  rintro ⟨t, ht, ha⟩
  obtain ⟨e, he⟩ := h t ht
  rw [he] at ha
  cases ha

/-- after failures and a value, that value is the one that was loaded -/
theorem AllFailed.loaded_concat {earlier : List (Trial α)} (h : AllFailed earlier) {endMs : Nat} {a b : α}
    (hb : Loaded (earlier ++ [⟨endMs, .ok a⟩]) b) : b = a := by
  obtain ⟨t, ht, hresult⟩ := hb
  rcases List.mem_append.1 ht with ht | ht
  · exact absurd ⟨t, ht, hresult⟩ (h.not_loaded b)
  · rw [List.mem_singleton.1 ht] at hresult
    exact (Except.ok.inj hresult).symm

/-- a loader that agrees with its log answers by it -/
theorem Agrees.answers (h : Agrees l log) (nowMs : Nat) : Answers l.backend l.cooldownMs log l nowMs := by
  have hsettled : l.state ≠ .loading ∧ (l.get nowMs).2.state ≠ .loading :=
    ⟨h.ne_loading, (h.step (nowMs, .get)).ne_loading⟩
  cases hheld : l.held? nowMs with
  | none =>
    obtain ⟨hget, hattempts⟩ := get_of_unheld hheld
    obtain ⟨hfailed, hold⟩ := h.unheld hheld
    have hcooled : ¬Cooling log l.cooldownMs nowMs := by
      rintro ⟨t, ht, -, hyoung⟩
      exact absurd (hold t ht) (Nat.not_le.2 hyoung)
    exact {
      attempts := iff_of_true hattempts ⟨hfailed.not_loaded, hcooled⟩
      attempted := fun _ => by rw [hget]
      value := fun a ha => absurd ha (hfailed.not_loaded a)
      cooling := fun _ hcooling => absurd hcooling hcooled
      settled := hsettled }
  | some r =>
    obtain ⟨hget, hnot⟩ := get_of_held hheld
    cases h with
    | idle hstate => simp [held?, hstate] at hheld
    | @ready earlier endMs a hstate hearlier =>
      obtain rfl : Except.ok a = r := by simpa [held?, hstate] using hheld
      have hloaded : Loaded (earlier ++ [⟨endMs, .ok a⟩]) a := ⟨⟨endMs, .ok a⟩, by simp, rfl⟩
      exact {
        attempts := iff_of_false hnot fun hnone => hnone.1 a hloaded
        attempted := fun hattempts => absurd hattempts hnot
        value := fun b hb => by rw [hearlier.loaded_concat hb, hget]
        cooling := fun hnone _ => absurd hloaded (hnone a)
        settled := hsettled }
    | @failed earlier endMs e hstate hdirect hearlier hlatest =>
      obtain ⟨hyoung, rfl⟩ : nowMs - endMs < l.cooldownMs ∧
          Except.error (.coolingDown l.backend (l.cooldownMs - (nowMs - endMs)) e) = r := by
        simpa [held?, hstate] using hheld
      have hfailed := hearlier.concat endMs e
      have hcooling : Cooling (earlier ++ [(⟨endMs, .error e⟩ : Trial α)]) l.cooldownMs nowMs :=
        ⟨⟨endMs, .error e⟩, by simp, ⟨e, rfl⟩, hyoung⟩
      exact {
        attempts := iff_of_false hnot fun hnone => hnone.2 hcooling
        attempted := fun hattempts => absurd hattempts hnot
        value := fun a ha => absurd ha (hfailed.not_loaded a)
        cooling := fun _ _ => ⟨endMs, e, _, List.getLast?_concat, hdirect, hget, rfl, by omega, by omega⟩
        settled := hsettled }

/-- **Calls to a loader.** Whatever the attempts come to, after any calls to a new loader, at any times:
- a call makes an attempt just if since the last reset no attempt gave a value and none failed less than the cooldown
  ago;
- once there is a value, it is the answer until a reset, without an attempt;
- while a failure cools down, the answer holds the error of the latest attempt, and a time that is left, of which there
  is some and no more than the cooldown;
- the loader is never left loading. -/
theorem calls_answered (backend : String) (timeoutMs cooldownMs : Nat) (factory : Nat → Attempt α)
    (calls : List (Nat × LoaderCall)) (nowMs : Nat) :
    let l := new backend timeoutMs cooldownMs factory
    Answers backend cooldownMs (l.trials calls) (l.run calls) nowMs := by
  intro l
  have hagrees : Agrees (l.run calls) (l.trials calls) := Agrees.run (.idle rfl) calls
  have hsettings := settings_run l calls
  have hanswers := hagrees.answers nowMs
  rwa [hsettings.1, hsettings.2] at hanswers

end Loader

end TsxWorkbench.State
