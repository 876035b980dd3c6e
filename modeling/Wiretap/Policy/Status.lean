import Wiretap.Text.Blank
import Wiretap.Text.AsciiCase
import Wiretap.Text.Decimal
import Wiretap.Text.Pieces
/-!
# Policy statuses

A status says what becomes of a connection: it is open, closed, slowed down by some milliseconds,
or refused after some milliseconds, as if an attempt had timed out.

A status has a text, `OPEN`, `CLOSED`, `THROTTLE(n)` or `REFUSE_AFTER(n)`, read in any letter case
and with blanks around it and around the number.  It also has an older form, a signed **code**: 0
is open, -1 closed, a positive code throttles and one below -1 refuses after that many
milliseconds.  A decimal code is a status text too.
-/

namespace Wiretap

/-- What becomes of a connection. -/
inductive Status where
  | opened
  | closed
  /-- Admitted, with so many milliseconds of delay. -/
  | throttle (ms : UInt32)
  /-- Refused after so many milliseconds. -/
  | refuseAfter (ms : UInt32)
  deriving DecidableEq, Repr, Inhabited

/-- Why a text is no status; `text` is without the blanks around it. -/
inductive StatusError where
  /-- What stands in the parentheses is no number of milliseconds. -/
  | invalidDelay (text : String)
  /-- The text begins like no status. -/
  | unknown (text : String)
  deriving DecidableEq, Repr

/-- The words of the error. -/
def StatusError.message : StatusError → String
  | .invalidDelay text => s!"invalid delay in policy status '{text}'"
  | .unknown text => s!"unknown policy status '{text}'"

namespace Status

/-- Whether connections are refused. -/
def isRefused : Status → Bool
  | closed | refuseAfter _ => true
  | opened | throttle _ => false

/-- The milliseconds to wait before going on or refusing, where there are any. -/
def delay? : Status → Option UInt32
  | throttle ms | refuseAfter ms => if 0 < ms then some ms else none
  | opened | closed => none

/-- The greatest delay. -/
def greatestDelay : Nat := UInt32.size - 1

/-- Milliseconds, cut at the greatest delay. -/
def cutDelay (ms : Nat) : UInt32 := UInt32.ofNat (min ms greatestDelay)

/-- The status that a code stands for. -/
def ofCode (code : Int) : Status :=
  if code = 0 then opened
  else if code = -1 then closed
  else if 0 < code then throttle (cutDelay code.natAbs)
  else refuseAfter (cutDelay code.natAbs)

/-- The code of a status.  The code -1 belongs to `closed`, so a refusal has at least 2. -/
def toCode : Status → Int
  | opened => 0
  | closed => -1
  | throttle ms => ms.toNat
  | refuseAfter ms => -(max ms.toNat 2 : Nat)

/-- The written form of a status. -/
def text : Status → String
  | opened => "OPEN"
  | closed => "CLOSED"
  | throttle ms => s!"THROTTLE({ms})"
  | refuseAfter ms => s!"REFUSE_AFTER({ms})"

/-- What stands in the parentheses behind `word`, if the text has that form. -/
def argument? (word : String) (cs : List Char) : Option (List Char) := do
  let rest ← Text.after? word.toList cs
  Text.between? '(' ')' rest

/-- Reads a status from text without blanks around it. -/
def parseChars (cs : List Char) : Except StatusError Status :=
  let upper := cs.map Char.toUpper
  let delay (argument : List Char) : Except StatusError UInt32 :=
    match Text.uint32? (Text.trimChars argument) with
    | some ms => .ok ms
    | none => .error (.invalidDelay (String.ofList cs))
  if upper = "OPEN".toList then .ok opened
  else if upper = "CLOSED".toList then .ok closed
  else
    match argument? "THROTTLE" upper with
    | some argument => (delay argument).map throttle
    | none =>
      match argument? "REFUSE_AFTER" upper with
      | some argument => (delay argument).map refuseAfter
      | none =>
        match Text.int64? cs with
        | some code => .ok (ofCode code)
        | none => .error (.unknown (String.ofList cs))

/-- Reads a status, with blanks around it or not. -/
def parse (s : String) : Except StatusError Status := parseChars (Text.trimChars s.toList)

/-- A delay that is cut is the delay, or the greatest one where that is less. -/
theorem toNat_cutDelay (ms : Nat) : (cutDelay ms).toNat = min ms greatestDelay := by
  have : greatestDelay = 4294967295 := rfl
  simp only [cutDelay, UInt32.toNat_ofNat']
  omega

/-- Whether a status refuses survives being written as a code and read back. -/
theorem isRefused_ofCode_toCode (s : Status) : (ofCode s.toCode).isRefused = s.isRefused := by
  cases s with
  | opened => rfl
  | closed => rfl
  | throttle ms =>
    by_cases h : (ms.toNat : Int) = 0
    · simp [toCode, ofCode, h, isRefused]
    · have h1 : ¬ (ms.toNat : Int) = -1 := by omega
      have h2 : 0 < (ms.toNat : Int) := by omega
      simp only [toCode, ofCode, h, h1, h2, if_false, if_true, isRefused]
  | refuseAfter ms =>
    have h : ¬ (-(max ms.toNat 2 : Nat) : Int) = 0 := by omega
    have h1 : ¬ (-(max ms.toNat 2 : Nat) : Int) = -1 := by omega
    have h2 : ¬ 0 < (-(max ms.toNat 2 : Nat) : Int) := by omega
    simp only [toCode, ofCode, h, h1, h2, if_false, isRefused]

end Status

end Wiretap
