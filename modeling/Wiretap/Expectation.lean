import Wiretap.Counter
import Wiretap.Statement
import Wiretap.Address.Matcher
/-!
# Expectations: how much input and output there should be

An expectation bounds how many statements of a kind, or connections to some addresses, the selected
threads make; for statements it may bound the rows too.  It is made from a **specification**, which
may give an exact number or a least and a greatest one, and may also contradict itself.

`Expectation.of` refuses the contradictions, the count before the rows.
-/

namespace Wiretap

/-- What is counted. -/
inductive Target where
  /-- Executions of statements of a kind. -/
  | statements (kind : StatementKind)
  /-- Distinct connections to addresses. -/
  | connections (matcher : AddressMatcher)
  deriving DecidableEq, Repr

instance : Inhabited Target := ⟨.statements .any⟩

/-- Bounds on a number: an exact value, or a least and a greatest one, each of which may be left
out. -/
structure Bounds where
  exact : Option UInt64 := none
  least : Option UInt64 := none
  greatest : Option UInt64 := none
  deriving DecidableEq, Repr, Inhabited

/-- What an expectation is made from. -/
structure Specification where
  target : Target := .statements .any
  count : Bounds := {}
  rows : Bounds := {}
  threads : Scope := .current
  deriving DecidableEq, Repr, Inhabited

/-- The numbers from `least` to `greatest`. -/
structure Range where
  least : UInt64
  greatest : UInt64
  deriving DecidableEq, Repr, Inhabited

namespace Range

/-- The range of one number. -/
def exact (n : UInt64) : Range := ⟨n, n⟩

/-- Whether a number is in the range. -/
def contains (r : Range) (n : UInt64) : Bool := r.least ≤ n && n ≤ r.greatest

/-- The range in words; one that reaches to the greatest number counts as open. -/
def text (r : Range) : String :=
  if r.greatest = Wiretap.greatest then s!"at least {r.least}"
  else s!"between {r.least} and {r.greatest}"

end Range

/-- What is bounded. -/
inductive Quantity where
  | count
  | rows
  deriving DecidableEq, Repr, Inhabited

/-- The quantity in words. -/
def Quantity.text : Quantity → String
  | .count => "count"
  | .rows => "rows"

/-- Why a specification makes no expectation. -/
inductive SpecificationError where
  /-- An exact number together with a least or a greatest one. -/
  | exactWithRange (quantity : Quantity)
  /-- A greatest number below the least one. -/
  | invertedRange (quantity : Quantity) (least greatest : UInt64)
  /-- No bound on the count. -/
  | unconstrained
  /-- A bound on the rows of connections. -/
  | rowsOnConnections
  deriving DecidableEq, Repr

/-- The words of the error. -/
def SpecificationError.message : SpecificationError → String
  | .exactWithRange quantity => s!"exact {quantity.text} cannot be combined with min/max"
  | .invertedRange quantity least greatest =>
    s!"max {quantity.text} ({greatest}) cannot be less than min ({least})"
  | .unconstrained => "expectation needs an exact count, a min or a max"
  | .rowsOnConnections => "row counts only apply to statement expectations"

/-- The range that bounds describe; none where nothing is bounded. -/
def Bounds.range (b : Bounds) (quantity : Quantity) : Except SpecificationError (Option Range) :=
  match b.exact, b.least, b.greatest with
  | some n, none, none => .ok (some (.exact n))
  | some _, _, _ => .error (.exactWithRange quantity)
  | none, none, none => .ok none
  | none, least, greatest =>
    let least := least.getD 0
    let greatest := greatest.getD Wiretap.greatest
    if greatest < least then .error (.invertedRange quantity least greatest)
    else .ok (some ⟨least, greatest⟩)

/-- How much input and output there should be. -/
structure Expectation where
  target : Target
  count : Range
  rows : Option Range
  threads : Scope
  deriving DecidableEq, Repr, Inhabited

namespace Expectation

/-- The expectation that a specification describes. -/
def of (spec : Specification) : Except SpecificationError Expectation :=
  match spec.count.range .count with
  | .error e => .error e
  | .ok none => .error .unconstrained
  | .ok (some count) =>
    match spec.rows.range .rows with
    | .error e => .error e
    | .ok rows =>
      match spec.target, rows with
      | .connections _, some _ => .error .rowsOnConnections
      | target, rows => .ok { target, count, rows, threads := spec.threads }

/-- The word for a kind in front of what is counted; there is none for every kind at once. -/
def kindWord : StatementKind → String
  | .any => ""
  | kind => s!"{kind.text} "

/-- What is counted, in words. -/
def targetText (e : Expectation) : String :=
  match e.target with
  | .statements kind =>
    let rows := match e.rows with
      | some rows => s!" affecting {rows.text} rows"
      | none => ""
    s!"{kindWord kind}queries{rows}"
  | .connections matcher => s!"connections to {matcher.text}"

/-- The expectation in words. -/
def text (e : Expectation) : String :=
  s!"{e.count.text} {e.targetText} on {e.threads.text}"

end Expectation

end Wiretap
