import Wiretap.Clock
import Wiretap.Ledger
import Wiretap.Policy.Book
import Wiretap.Settings
/-!
# The tap: what stands between an application and the outside

A **tap** holds the settings, the ledger, the policy book, a clock and a sleeper.  Every call that
an application makes through it is made by a **caller**: a thread at a call site.

The outside is whatever answers a call.  Here it is any function that takes a state of the outside
to an answer and the state after it, so what is said about a tap holds whatever stands behind it.
Such a call is **timed** by one reading of the clock before it and one after it.
-/

namespace Wiretap

/-- A thread at a call site. -/
structure Caller where
  thread : Thread
  /-- The call site as it is captured. -/
  site : String := ""
  deriving Repr, Inhabited

/-- What stands between an application and the outside. -/
structure Tap where
  settings : Settings := {}
  ledger : Ledger := {}
  book : Book := {}
  clock : Clock := {}
  sleeper : Sleeper := {}
  deriving Inhabited

/-- Why a call that the policy may refuse came to nothing. -/
inductive Denial (ε : Type u) where
  /-- The policy refused; the outside was not asked. -/
  | refused (refusal : Refusal)
  /-- The outside failed. -/
  | failed (error : ε)
  deriving DecidableEq, Repr

/-- The words of the error, given those of the outside's error. -/
def Denial.message (words : ε → String) : Denial ε → String
  | .refused refusal => refusal.message
  | .failed error => words error

/-- The refusal inside a denial, by which it is told apart from a failure of the outside. -/
def Denial.refusal? : Denial ε → Option Refusal
  | .refused refusal => some refusal
  | .failed _ => none

/-- What a failure on a connection looks like from without. -/
inductive FailureKind where
  | connectionRefused
  /-- A kind that only the outside knows. -/
  | other (name : String)
  deriving DecidableEq, Repr

/-- The name of a kind. -/
def FailureKind.text : FailureKind → String
  | .connectionRefused => "ConnectionRefused"
  | .other name => name

/-- The kind of a denial on a connection, given the kinds of the outside's errors.  What the policy
refuses looks like an endpoint that refuses connections. -/
def Denial.kind (kinds : ε → FailureKind) : Denial ε → FailureKind
  | .refused _ => .connectionRefused
  | .failed error => kinds error

/-- An answer of the outside with its times. -/
structure Timed (α : Type u) where
  answer : α
  /-- How long the answer took; never less than nothing. -/
  elapsed : UInt64
  /-- The clock after the answer. -/
  finish : UInt64
  deriving Repr

namespace Tap

/-- A tap with the given settings whose policy may be kept on a disk.  A policy file that cannot be
read leaves the registry empty, with the path to write it to. -/
def of (settings : Settings) (disk : Disk) : Tap where
  settings := settings
  ledger := { mergeThreshold := settings.mergeThreshold, capacity := settings.capacity.toNat }
  book :=
    match settings.registryPath with
    | none => { disk }
    | some path =>
      match ({ disk } : Book).openFile path with
      | .ok book => book
      | .error _ => { registry := { storage := some path }, disk }

/-- A reading of the clock. -/
def read (t : Tap) : UInt64 × Tap :=
  let (now, clock) := t.clock.read
  (now, { t with clock := clock })

/-- Sleeps for so many milliseconds. -/
def sleep (t : Tap) (ms : Nat) : Tap := { t with sleeper := t.sleeper.sleepMillis ms }

/-- Sleeps for the delay of a status, if it has one. -/
def delay (t : Tap) (status : Status) : Tap :=
  match status.delay? with
  | some ms => t.sleep ms.toNat
  | none => t

/-- The call site of a caller, if call sites are captured. -/
def trace (t : Tap) (caller : Caller) : Option String × Tap :=
  if t.settings.captureTraces then
    let (site, ledger) := t.ledger.intern caller.site
    (some site, { t with ledger := ledger })
  else (none, t)

/-- Asks the outside, between two readings of the clock. -/
def ask (t : Tap) (outside : σ → α × σ) (state : σ) : Timed α × σ × Tap :=
  let (start, t) := t.read
  let (answer, state) := outside state
  let (finish, t) := t.read
  ({ answer, elapsed := flooredSub finish start, finish }, state, t)

end Tap

end Wiretap
