import Wiretap.Spy
/-!
# Running a body inside a window

A spy may be handed a body to run, and is closed when the body is done, however it ends.  The body
is any change of a state in which the ledger can be seen.

* `run` is for a body that can only return or panic.  A panic goes on as it came, whatever the
  expectations say.
* `execute` is for a body that can also fail.  Its error goes before a violation, which is kept
  beside it.
* `executeOrUnwind` is for a body that can do all three.  It does not catch a panic, which takes the
  spy along.

A spy that nobody closed is verified when it is dropped, and a violation then is a panic, unless
one is already under way.
-/

namespace Wiretap

/-- How a body ends that can only return or panic. -/
inductive Ending (α : Type u) where
  | value (value : α)
  | panic (payload : String)
  deriving DecidableEq, Repr

/-- How a run ends. -/
inductive RunEnding (α : Type u) where
  | value (value : α)
  | violated (violation : Violation)
  | panic (payload : String)
  deriving Repr

/-- Why a scope failed. -/
inductive ScopeError (ε : Type u) where
  /-- The body failed; expectations may have failed too. -/
  | body (error : ε) (suppressed : Option Violation)
  | violated (violation : Violation)
  deriving Repr

/-- The words of the error, given those of the body's error. -/
def ScopeError.message (words : ε → String) : ScopeError ε → String
  | .body error none => words error
  | .body error (some _) => s!"{words error} (expectations also failed)"
  | .violated violation => violation.text

namespace Spy

/-- Runs a body that can only return or panic, and closes the spy. -/
def run (s : Spy) (ledgerOf : σ → Ledger) (body : σ → Ending α × σ) (state : σ) :
    RunEnding α × Spy × σ :=
  match body state with
  | (.value value, state) =>
    match s.close (ledgerOf state) with
    | (none, s) => (.value value, s, state)
    | (some violation, s) => (.violated violation, s, state)
  | (.panic payload, state) => (.panic payload, (s.close (ledgerOf state)).2, state)

/-- Runs a body that can fail, and closes the spy. -/
def execute (s : Spy) (ledgerOf : σ → Ledger) (body : σ → Except ε α × σ) (state : σ) :
    Except (ScopeError ε) α × Spy × σ :=
  match body state with
  | (.ok value, state) =>
    match s.close (ledgerOf state) with
    | (none, s) => (.ok value, s, state)
    | (some violation, s) => (.error (.violated violation), s, state)
  | (.error error, state) =>
    let (suppressed, s) := s.close (ledgerOf state)
    (.error (.body error suppressed), s, state)

/-- Runs a body that can fail or panic.  A panic is not held up; the spy is dropped on its way, and
is closed by that. -/
def executeOrUnwind (s : Spy) (ledgerOf : σ → Ledger) (body : σ → Ending (Except ε α) × σ)
    (state : σ) : Ending (Except (ScopeError ε) α) × Spy × σ :=
  match body state with
  | (.value result, state) =>
    let (outcome, s, state) := s.execute ledgerOf (fun state => (result, state)) state
    (.value outcome, s, state)
  | (.panic payload, state) => (.panic payload, (s.close (ledgerOf state)).2, state)

/-- Drops a spy; the violation that it panics with, if any. -/
def drop (s : Spy) (l : Ledger) (unwinding : Bool) : Option Violation :=
  if unwinding then none else (s.close l).1

end Spy

end Wiretap
