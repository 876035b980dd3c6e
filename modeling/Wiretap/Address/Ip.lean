import Wiretap.Address
import Wiretap.Text.Hex
/-!
# Addresses with an IP number for a host

A numeric endpoint is written `a.b.c.d:port` or `[v6]:port`.  Its host is the canonical text of
the number: an IPv6 number is eight groups of lower case hexadecimal digits without leading
zeros, where the first of the longest runs of two or more zero groups is written `::`, and the
last thirty-two bits of a number in `::ffff:0:0/96` are written as an IPv4 number.
-/

namespace Wiretap.Ip

/-- A group of one to four hexadecimal digits. -/
def group? (cs : List Char) : Option Nat := do
  if cs.isEmpty ∨ 4 < cs.length then none
  cs.foldlM (fun n c => (Text.hexDigit? c).map (16 * n + ·)) 0

/-- The pieces between the marks; a text without a mark is one piece. -/
def pieces (mark : Char) : List Char → List (List Char)
  | [] => [[]]
  | c :: r =>
    if c = mark then [] :: pieces mark r
    else
      match pieces mark r with
      | [] => [[c]]
      | p :: ps => (c :: p) :: ps

/-- The four numbers of an IPv4 text. -/
def quad? (cs : List Char) : Option (List Nat) := do
  let numbers ← (pieces '.' cs).mapM Text.digits?
  if numbers.length = 4 ∧ numbers.all (· ≤ 255) then some numbers else none

/-- The groups of a run of pieces, of which the last may be an IPv4 text worth two groups. -/
def groups? : List (List Char) → Option (List Nat)
  | [] => some []
  | [last] =>
    if '.' ∈ last then
      (quad? last).bind fun
        | [a, b, c, d] => some [256 * a + b, 256 * c + d]
        | _ => none
    else (group? last).map ([·])
  | p :: ps => do
    let g ← group? p
    return g :: (← groups? ps)

/-- The two sides of the first `::`. -/
def splitGap? : List Char → Option (List Char × List Char)
  | ':' :: ':' :: r => some ([], r)
  | c :: r => (splitGap? r).map fun (front, back) => (c :: front, back)
  | [] => none

/-- The groups of one side of `::`, which may be empty. -/
def side? (cs : List Char) : Option (List Nat) :=
  if cs.isEmpty then some [] else groups? (pieces ':' cs)

/-- The eight groups of an IPv6 text; a zone behind a percent sign is not part of the number. -/
def v6? (text : List Char) : Option (List Nat) := do
  let cs := text.takeWhile (· ≠ '%')
  match splitGap? cs with
  | some (front, back) =>
    let left ← side? front
    let right ← side? back
    let count := left.length + right.length
    if count ≤ 7 then some (left ++ List.replicate (8 - count) 0 ++ right) else none
  | none =>
    let all ← side? cs
    if all.length = 8 then some all else none

/-- The run of zero groups at each place: how many zeros stand from there on. -/
def zeroRuns : List Nat → List Nat
  | [] => []
  | g :: gs => (if g = 0 then 1 + (zeroRuns gs).headD 0 else 0) :: zeroRuns gs

/-- Where the first of the longest runs of zero groups starts, and how long it is. -/
def longestRun (groups : List Nat) : Nat × Nat :=
  let runs := zeroRuns groups
  let longest := runs.foldl max 0
  (runs.findIdx (· == longest), longest)

/-- A group in hexadecimal, without leading zeros. -/
def groupText (n : Nat) : String := String.ofList (Nat.toDigits 16 n)

/-- Groups with colons between them. -/
def groupsText (groups : List Nat) : String := String.intercalate ":" (groups.map groupText)

/-- An IPv4 number with dots between its parts. -/
def quadText (parts : List Nat) : String := String.intercalate "." (parts.map toString)

/-- The canonical text of eight groups. -/
def v6Text (groups : List Nat) : String :=
  match groups with
  | [0, 0, 0, 0, 0, 0xffff, a, b] => "::ffff:" ++ quadText [a / 256, a % 256, b / 256, b % 256]
  | _ =>
    let (start, length) := longestRun groups
    if 1 < length then
      groupsText (groups.take start) ++ "::" ++ groupsText (groups.drop (start + length))
    else groupsText groups

/-- Reads a numeric endpoint into an address with the canonical text for a host. -/
def parse? (s : String) : Option Address := do
  let (front, back) ← Text.splitLast? ':' s.toList
  let port ← Text.uint16? back
  match Text.between? '[' ']' front with
  | some inner => return ⟨v6Text (← v6? inner), port⟩
  | none => return ⟨quadText (← quad? front), port⟩

end Wiretap.Ip
