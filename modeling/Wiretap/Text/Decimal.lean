/-!
# Whole numbers in decimal

A whole number is written with ASCII digits, at least one of them, leading zeros allowed, after
an optional sign.  An unsigned number takes a plus sign only, not even `-0`.  Blanks,
underscores and other numerals are no part of a number, and a number beyond its bound is not a
number at all: nothing is clamped.
-/

namespace Wiretap.Text

/-- The value of an ASCII digit. -/
def digit? (c : Char) : Option Nat :=
  if '0' ≤ c ∧ c ≤ '9' then some (c.toNat - '0'.toNat) else none

/-- The number that `value` becomes when the digits `cs` are written after it. -/
def digitsFrom (value : Nat) : List Char → Option Nat
  | [] => some value
  | c :: r => (digit? c).bind fun d => digitsFrom (10 * value + d) r

/-- One digit or more. -/
def digits? : List Char → Option Nat
  | [] => none
  | cs => digitsFrom 0 cs

/-- The digits after an optional plus sign. -/
def unsigned? : List Char → Option Nat
  | '+' :: r => digits? r
  | cs => digits? cs

/-- The digits after an optional sign. -/
def signed? : List Char → Option Int
  | '-' :: r => (digits? r).map fun n => -(n : Int)
  | cs => (unsigned? cs).map fun n => (n : Int)

/-- An unsigned number of at most `bound`. -/
def unsignedUpTo? (bound : Nat) (cs : List Char) : Option Nat :=
  (unsigned? cs).filter (· ≤ bound)

/-- An unsigned number of sixteen bits: a port. -/
def uint16? (cs : List Char) : Option UInt16 :=
  (unsignedUpTo? (UInt16.size - 1) cs).map UInt16.ofNat

/-- An unsigned number of thirty-two bits: a delay. -/
def uint32? (cs : List Char) : Option UInt32 :=
  (unsignedUpTo? (UInt32.size - 1) cs).map UInt32.ofNat

/-- An unsigned number of sixty-four bits: a setting. -/
def uint64? (cs : List Char) : Option UInt64 :=
  (unsignedUpTo? (UInt64.size - 1) cs).map UInt64.ofNat

/-- A signed number of sixty-four bits. -/
def int64? (cs : List Char) : Option Int :=
  (signed? cs).filter fun n => Int64.minValue.toInt ≤ n ∧ n ≤ Int64.maxValue.toInt

end Wiretap.Text
