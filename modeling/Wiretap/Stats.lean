import Wiretap.Counter
/-!
# Statistics of one identity

Five counters are kept for each statement and each connection.  A live counter takes increments
that wrap (`accumulate`); rows that fall together in a query are added with a cap (`plus`); and a
window sees the difference of two readings (`since`).

A counter never runs backwards while it lives, so a reading in which **any** field stands below
the earlier one belongs to a counter that was dropped and made anew, and the whole reading is
the gain.
-/

namespace Wiretap

/-- What was counted for one identity. -/
structure Stats where
  elapsed : UInt64 := 0
  sent : UInt64 := 0
  received : UInt64 := 0
  rows : UInt64 := 0
  operations : UInt64 := 0
  deriving DecidableEq, Repr, Inhabited

namespace Stats

/-- Nothing counted. -/
def zero : Stats := {}

/-- One operation that took `nanos` nanoseconds. -/
def operation (nanos : UInt64) : Stats :=
  { elapsed := nanos, operations := 1 }

/-- Whether nothing was counted. -/
def isZero (s : Stats) : Bool := s == zero

/-- The counter after one more increment; each field wraps. -/
def accumulate (counter delta : Stats) : Stats where
  elapsed := counter.elapsed + delta.elapsed
  sent := counter.sent + delta.sent
  received := counter.received + delta.received
  rows := counter.rows + delta.rows
  operations := counter.operations + delta.operations

/-- The total of two readings; each field is capped. -/
def plus (a b : Stats) : Stats where
  elapsed := cappedAdd a.elapsed b.elapsed
  sent := cappedAdd a.sent b.sent
  received := cappedAdd a.received b.received
  rows := cappedAdd a.rows b.rows
  operations := cappedAdd a.operations b.operations

/-- The gain of every field over an earlier reading, where no field stands below it. -/
def gain? (now before : Stats) : Option Stats := do
  return {
    elapsed := ← since? now.elapsed before.elapsed
    sent := ← since? now.sent before.sent
    received := ← since? now.received before.received
    rows := ← since? now.rows before.rows
    operations := ← since? now.operations before.operations }

/-- What was counted since an earlier reading; all of it, where the counter was made anew in
between. -/
def since (now before : Stats) : Stats :=
  (now.gain? before).getD now

theorem isZero_iff (s : Stats) : s.isZero = true ↔ s = zero := by
  simp [isZero]

end Stats

end Wiretap
