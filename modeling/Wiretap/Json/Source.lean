/-!
# Sources: text as JSON is read from

A source is a list of **units**: a character, or nothing where bytes spell no character in UTF-8.
Text is a source without gaps.  In bytes that are no UTF-8 each byte that does not begin a
character is a gap of its own, so that no ASCII sign is ever lost next to a gap.

`ofBytes_toUTF8` says that the bytes of a text are read as that text.
-/

namespace Wiretap.Json

/-- Characters, with gaps where there is none. -/
abbrev Source := List (Option Char)

namespace Source

/-- A text as a source. -/
def ofText (s : String) : Source := s.toList.map some

/-- Whether a byte can only follow the first byte of a character. -/
def isTail (b : UInt8) : Bool := 0x80 ≤ b && b ≤ 0xBF

/-- The six bits of a following byte. -/
def tailBits (b : UInt8) : Nat := b.toNat - 0x80

/-- The character that begins the bytes, and how many bytes of it follow the first. -/
def scalar? : List UInt8 → Option (Char × Nat)
  | [] => none
  | a :: r =>
    if a < 0x80 then some (Char.ofNat a.toNat, 0)
    else
      match r with
      | b :: r =>
        if !isTail b then none
        else if 0xC2 ≤ a ∧ a ≤ 0xDF then
          some (Char.ofNat ((a.toNat - 0xC0) * 0x40 + tailBits b), 1)
        else
          match r with
          | c :: r =>
            if !isTail c then none
            else if 0xE0 ≤ a ∧ a ≤ 0xEF then
              let n := (a.toNat - 0xE0) * 0x1000 + tailBits b * 0x40 + tailBits c
              if n < 0x800 ∨ (0xD800 ≤ n ∧ n ≤ 0xDFFF) then none else some (Char.ofNat n, 2)
            else
              match r with
              | d :: _ =>
                let n := (a.toNat - 0xF0) * 0x40000 + tailBits b * 0x1000 + tailBits c * 0x40 +
                  tailBits d
                if !isTail d ∨ a < 0xF0 ∨ 0xF4 < a ∨ n < 0x10000 ∨ 0x10FFFF < n then none
                else some (Char.ofNat n, 3)
              | [] => none
          | [] => none
      | [] => none

/-- The units of bytes of which the first `skip` belong to a character that was already read. -/
def scatter : Nat → List UInt8 → Source
  | _, [] => []
  | skip + 1, _ :: r => scatter skip r
  | 0, b :: r =>
    match scalar? (b :: r) with
    | some (c, more) => some c :: scatter more r
    | none => none :: scatter 0 r

/-- Bytes as a source. -/
def ofBytes (bytes : ByteArray) : Source :=
  match String.fromUTF8? bytes with
  | some s => ofText s
  | none => scatter 0 bytes.data.toList

/-- The bytes of a text are read as that text. -/
theorem ofBytes_toUTF8 (s : String) : ofBytes s.toUTF8 = ofText s := by
  have h : String.fromUTF8? s.toUTF8 = some s := dif_pos s.isValidUTF8
  rw [ofBytes, h]

end Source

end Wiretap.Json
