import Wiretap.Address
import Wiretap.Proofs.Text.Decimal
/-!
# Which addresses are read back

Writing an address puts brackets around a host that holds a colon, so that the last colon of the
text is always the one before the port.  Reading cuts there, and drops one pair of brackets.  It
cannot tell who put the brackets there: of a host without a colon it drops those that the host came
with.

* `splitLast?_text` — a written address is cut where it was put together;
* `parse?_text` — what reading makes of any written address;
* `address_read_back_iff` — which addresses it gives back.
-/

namespace Wiretap

namespace Text

/-- A text that begins with `[` and ends with another bracket, `]`. -/
def IsBracketed (s : String) : Prop := ∃ inner : String, s = "[" ++ inner ++ "]"

/-- What is put between brackets is what they are taken off from. -/
theorem unbracket_brackets (inner : List Char) : unbracket ('[' :: (inner ++ [']'])) = inner := by
  rw [unbracket, between?_eq_some_iff.2 rfl, Option.getD_some]

/-- Brackets are dropped where they are, and nothing else is. -/
theorem unbracket_eq_self_iff {s : String} : unbracket s.toList = s.toList ↔ ¬ IsBracketed s := by
  constructor
  · rintro hsame ⟨inner, rfl⟩
    have htext : ("[" ++ inner ++ "]").toList = '[' :: (inner.toList ++ [']']) := by simp
    have hlength := congrArg List.length hsame
    rw [htext, unbracket_brackets, List.length_cons, List.length_append] at hlength
    omega
  · intro hs
    rw [unbracket]
    cases hinner : between? '[' ']' s.toList with
    | none => rfl
    | some inner =>
      refine absurd ⟨String.ofList inner, ?_⟩ hs
      rw [← String.toList_inj, between?_eq_some_iff.1 hinner]
      simp

/-- There is no colon in a port. -/
theorem colon_notMem_port (port : UInt16) : ':' ∉ (toString port).toList := by
  rw [toList_toString_uint16]
  intro hcolon
  exact absurd (isDigit_of_mem_written hcolon) (by decide)

end Text

namespace Address

/-- The host as it stands in the text of an address. -/
def writtenHost (a : Address) : List Char :=
  if ':' ∈ a.host.toList then '[' :: (a.host.toList ++ [']']) else a.host.toList

/-- The host as reading finds it there. -/
def readHost (a : Address) : List Char :=
  if ':' ∈ a.host.toList then a.host.toList else Text.unbracket a.host.toList

/-- The text of an address is its host as written, a colon and its port. -/
theorem toList_text (a : Address) :
    a.text.toList = a.writtenHost ++ ':' :: (toString a.port).toList := by
  unfold text writtenHost
  by_cases hcolon : ':' ∈ a.host.toList
  · rw [if_pos hcolon, if_pos hcolon]
    show ("[" ++ a.host ++ "]:" ++ toString a.port).toList = _
    simp
  · rw [if_neg hcolon, if_neg hcolon]
    show (a.host ++ ":" ++ toString a.port).toList = _
    simp

/-- **A written address is cut where it was put together**, however many colons its host has. -/
theorem splitLast?_text (a : Address) :
    Text.splitLast? ':' a.text.toList = some (a.writtenHost, (toString a.port).toList) :=
  Text.splitLast?_eq_some_iff.2 ⟨a.toList_text, Text.colon_notMem_port a.port⟩

/-- The brackets of a host as written are taken off when it is read. -/
theorem unbracket_writtenHost (a : Address) : Text.unbracket a.writtenHost = a.readHost := by
  unfold writtenHost readHost
  by_cases hcolon : ':' ∈ a.host.toList
  · rw [if_pos hcolon, if_pos hcolon, Text.unbracket_brackets]
  · rw [if_neg hcolon, if_neg hcolon]

/-- **What reading makes of a written address**: nothing if no host is left, else the port and what
is left of the host. -/
theorem parse?_text (a : Address) :
    parse? a.text =
      if a.readHost = [] then none else some ⟨String.ofList a.readHost, a.port⟩ := by
  rw [parse?, splitLast?_text]
  simp only [Option.bind_eq_bind, Option.bind_some, unbracket_writtenHost, List.isEmpty_iff,
    Text.uint16?_toString]
  by_cases hnone : a.readHost = []
  · rw [if_pos hnone, if_pos hnone]
    rfl
  · rw [if_neg hnone, if_neg hnone]
    rfl

/-- The host is read as it is if it holds a colon, or has no brackets of its own. -/
theorem readHost_eq_host_iff {a : Address} :
    a.readHost = a.host.toList ↔ ':' ∈ a.host.toList ∨ ¬ Text.IsBracketed a.host := by
  unfold readHost
  by_cases hcolon : ':' ∈ a.host.toList
  · simp [hcolon]
  · simp [hcolon, Text.unbracket_eq_self_iff]

end Address

/-- **Which addresses are read back.**  The text of an address is read as that address if and only
if its host is not empty, and holds a colon or does not stand in brackets already. -/
theorem address_read_back_iff (a : Address) :
    Address.parse? a.text = some a ↔
      a.host ≠ "" ∧ (':' ∈ a.host.toList ∨ ¬ Text.IsBracketed a.host) := by
  rw [← Address.readHost_eq_host_iff, Address.parse?_text]
  have hempty : a.host ≠ "" ↔ a.host.toList ≠ [] := not_congr String.toList_eq_nil_iff.symm
  rw [hempty]
  constructor
  · intro hread
    by_cases hnone : a.readHost = []
    · rw [if_pos hnone] at hread
      cases hread
    · rw [if_neg hnone, Option.some.injEq] at hread
      have hhost : a.readHost = a.host.toList := by
        rw [← congrArg Address.host hread, String.toList_ofList]
      exact ⟨hhost ▸ hnone, hhost⟩
  · rintro ⟨hhost, hsame⟩
    rw [hsame, if_neg hhost, String.ofList_toList]

/-- Brackets that a host came with are dropped; next to a colon they are not. -/
example :
    Address.parse? (Address.text ⟨"[db]", 80⟩) = some ⟨"db", 80⟩ ∧
      Address.parse? (Address.text ⟨"[::1]", 80⟩) = some ⟨"[::1]", 80⟩ := by decide +kernel

end Wiretap
