/-
A backend that is loaded when it is first asked for and kept until a reset. A failed attempt is not repeated until its
cooldown is over; callers get its error in the meantime. Time is a count of milliseconds that callers pass in.
-/

namespace TsxWorkbench.State

/-! ## Errors -/

inductive LoadError where
  | timeout (backend : String) (limitMs : Nat)
  | failed (backend message : String)
  | coolingDown (backend : String) (remainingMs : Nat) (cause : LoadError)
deriving DecidableEq, Repr

/-- a duration in seconds or milliseconds; a part of a second keeps its digits up to the last that is not zero -/
def durationText (ms : Nat) : String :=
  if ms = 0 then "0ns"
  else if ms < 1000 then toString ms ++ "ms"
  else
    let digits := (toString (1000 + ms % 1000)).toList.drop 1
    let fraction := (digits.reverse.dropWhile (· = '0')).reverse
    toString (ms / 1000) ++ (if fraction.isEmpty then "" else "." ++ String.ofList fraction) ++ "s"

def LoadError.message : LoadError → String
  | .timeout backend limit => backend ++ " did not load within " ++ durationText limit
  | .failed backend message => backend ++ " failed to load: " ++ message
  | .coolingDown backend remaining cause =>
    backend ++ " is cooling down after a failed load (" ++ durationText remaining ++ " left): " ++ cause.message

/-! ## Attempts -/

/-- how an attempt to load ends -/
inductive Outcome (α : Type) where
  | value (a : α)
  | error (message : String)
  /-- the loading thread ends without a result -/
  | lost
  | timeout

/-- an attempt: how it ends, and after how long -/
structure Attempt (α : Type) where
  outcome : Outcome α
  durationMs : Nat

inductive LoadState (α : Type) where
  | idle
  | loading
  | ready (value : α)
  | failed (error : LoadError) (atMs : Nat)

/-- a lazily loaded backend. `factory` tells how the attempt with each number ends -/
structure Loader (α : Type) where
  backend : String
  timeoutMs : Nat
  cooldownMs : Nat
  factory : Nat → Attempt α
  attempts : Nat
  state : LoadState α

namespace Loader

variable {α : Type}

/-- a loader that nobody has asked yet -/
def new (backend : String) (timeoutMs cooldownMs : Nat) (factory : Nat → Attempt α) : Loader α :=
  ⟨backend, timeoutMs, cooldownMs, factory, 0, .idle⟩

def isReady (l : Loader α) : Bool :=
  match l.state with
  | .ready _ => true
  | _ => false

/-- forgets the value or the failure; attempts keep their numbers -/
def reset (l : Loader α) : Loader α := { l with state := .idle }

/-- what is answered without an attempt: a loaded value, or an error that is still cooling down -/
def held? (l : Loader α) (nowMs : Nat) : Option (Except LoadError α) :=
  match l.state with
  | .ready a => some (.ok a)
  | .failed error atMs =>
    let elapsed := nowMs - atMs
    if elapsed < l.cooldownMs then some (.error (.coolingDown l.backend (l.cooldownMs - elapsed) error)) else none
  | .idle => none
  | .loading => none

/-- result of an outcome -/
def result (l : Loader α) : Outcome α → Except LoadError α
  | .value a => .ok a
  | .error message => .error (.failed l.backend message)
  | .lost => .error (.failed l.backend "loader thread exited without a result")
  | .timeout => .error (.timeout l.backend l.timeoutMs)

/-- starts an attempt -/
def start (l : Loader α) : Loader α := { l with attempts := l.attempts + 1, state := .loading }

/-- ends an attempt with its result -/
def settle (l : Loader α) (r : Except LoadError α) (nowMs : Nat) : Loader α :=
  match r with
  | .ok a => { l with state := .ready a }
  | .error e => { l with state := .failed e nowMs }

/-- the backend, loaded if need be -/
def get (l : Loader α) (nowMs : Nat) : Except LoadError α × Loader α :=
  match l.held? nowMs with
  | some r => (r, l)
  | none =>
    let attempt := l.factory l.attempts
    let r := l.result attempt.outcome
    (r, l.start.settle r (nowMs + attempt.durationMs))

end Loader

end TsxWorkbench.State
