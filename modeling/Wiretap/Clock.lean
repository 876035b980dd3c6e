import Wiretap.Counter
/-!
# Clocks and sleepers that only do as told

A clock stands still unless it is moved.  It may be given readings in advance, which it hands out
first, and it may be told to move on by a step after every reading.  A sleeper does not sleep: it
notes for how long it was asked to.
-/

namespace Wiretap

/-- A clock of nanoseconds. -/
structure Clock where
  /-- What the clock stands at. -/
  base : UInt64 := 0
  /-- How far every reading moves it on; this wraps. -/
  step : UInt64 := 0
  /-- The readings to hand out first. -/
  queue : List UInt64 := []
  deriving DecidableEq, Repr, Inhabited

namespace Clock

/-- A reading, and the clock after it.  A reading from the queue becomes what the clock stands
at. -/
def read (c : Clock) : UInt64 × Clock :=
  match c.queue with
  | now :: rest => (now, { c with base := now, queue := rest })
  | [] => (c.base, { c with base := c.base + c.step })

/-- Puts the clock to `now`. -/
def set (c : Clock) (now : UInt64) : Clock := { c with base := now }

/-- Moves the clock on; this wraps. -/
def advance (c : Clock) (nanos : UInt64) : Clock := { c with base := c.base + nanos }

end Clock

/-- What a sleeper was asked for. -/
structure Sleeper where
  /-- The sleeps in nanoseconds, newest first. -/
  newestFirst : List Nat := []
  deriving DecidableEq, Repr, Inhabited

namespace Sleeper

/-- The sleeps in nanoseconds, oldest first. -/
def slept (s : Sleeper) : List Nat := s.newestFirst.reverse

/-- Notes one more sleep. -/
def sleep (s : Sleeper) (nanos : Nat) : Sleeper := { newestFirst := nanos :: s.newestFirst }

/-- Notes one more sleep, given in milliseconds. -/
def sleepMillis (s : Sleeper) (ms : Nat) : Sleeper := s.sleep (ms * 1000000)

/-- How long all sleeps take together. -/
def total (s : Sleeper) : Nat := s.newestFirst.foldr (· + ·) 0

end Sleeper

end Wiretap
