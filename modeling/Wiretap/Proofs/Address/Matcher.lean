import Wiretap.Address.Matcher
import Wiretap.Proofs.Address
/-!
# Addresses that are matchers for themselves

The text of an address is also a text of a matcher, and so a report that shows an address can be
asked about in the words it was shown in.  The text is always read: the port stands behind the last
colon, and no other colon stands right before that one (`matcher_text`).  But trimming and dropping
brackets may leave less of the host than there was, and a host that is only a star, or nothing, is
left open.

What is **heard** of a host is a part of it (`heardHost_infix`), so it is the host in any letter
case only where it is the host itself.  `address_is_own_matcher_iff` says for which addresses it is.
-/

namespace Wiretap

namespace Text

/-- A text whose first character is a blank. -/
def BeginsBlank (s : String) : Prop := s.toList.head?.any isBlank = true

/-- What is left of a text that is trimmed at its front is its end. -/
theorem trimFront_suffix (cs : List Char) : trimFront cs <:+ cs := List.dropWhile_suffix _

/-- Only a text that begins with a blank loses something at its front. -/
theorem trimFront_eq_self_iff {s : String} :
    trimFront s.toList = s.toList ↔ ¬ BeginsBlank s := by
  unfold BeginsBlank
  cases s.toList with
  | nil => simp [trimFront]
  | cons c rest =>
    rw [trimFront, List.dropWhile_cons, List.head?_cons, Option.any_some]
    by_cases hc : isBlank c = true
    · rw [if_pos hc]
      constructor
      · intro hsame
        have hlength := (List.dropWhile_suffix isBlank (l := rest)).length_le
        rw [hsame, List.length_cons] at hlength
        omega
      · intro hnot
        exact absurd hc hnot
    · rw [if_neg hc]
      simp [hc]

/-- What stands between brackets is a part of the text. -/
theorem unbracket_infix (cs : List Char) : unbracket cs <:+: cs := by
  rw [unbracket]
  cases hinner : between? '[' ']' cs with
  | none => exact List.infix_rfl
  | some inner =>
    refine ⟨['['], [']'], ?_⟩
    rw [between?_eq_some_iff.1 hinner]
    simp

/-- Where neither a mark nor what follows it is blank, trimming reaches only what stands before the
mark. -/
theorem trimChars_cut {mark : Char} {front back : List Char} (hmark : isBlank mark = false)
    (hback : ∀ c ∈ back, isBlank c = false) :
    trimChars (front ++ mark :: back) = trimFront front ++ mark :: back := by
  have hfront := trimFront_append_cons hmark front back
  have hend : ∀ c ∈ (trimFront front ++ mark :: back).getLast?, isBlank c = false := by
    intro c hc
    rw [List.getLast?_append, List.getLast?_cons, Option.some_or, ← List.getLast?_cons] at hc
    rcases List.mem_cons.1 (List.mem_of_getLast? hc) with rfl | hc
    · exact hmark
    · exact hback c hc
  rw [trimChars, hfront, trimBack, trimFront_of_bare, List.reverse_reverse]
  rw [List.head?_reverse, Option.all_eq_true]
  intro c hc
  rw [hend c hc]
  rfl

/-- Texts that are the same up to case are equally long. -/
theorem sameFolded_length {a b : String} (h : sameFolded a b = true) :
    a.toList.length = b.toList.length := by
  have hlength := congrArg List.length (eq_of_beq h)
  rw [List.length_map, List.length_map] at hlength
  exact hlength

end Text

namespace AddressMatcher

/-- What follows the last colon is the port, if no other colon stands right before that one. -/
theorem parts_cut {front back : List Char} (hback : ':' ∉ back)
    (hfront : front.getLast? ≠ some ':') :
    parts (front ++ ':' :: back) = (front, some back) := by
  rw [parts, Text.splitLast?_eq_some_iff.2 ⟨rfl, hback⟩]
  exact if_neg hfront

/-- A matcher of a host and a port accepts this port, and this host in any case. -/
theorem accepts_named {host : String} {port : UInt16} {b : Address} :
    (AddressMatcher.mk (some host) (some port)).accepts b = true ↔
      b.port = port ∧ Text.sameFolded host b.host = true := by
  rw [accepts, Bool.and_eq_true, Option.all_some, Option.all_some, beq_iff_eq, and_comm, eq_comm]

end AddressMatcher

namespace Address

/-- The host as a matcher hears it in the text of the address. -/
def heardHost (a : Address) : List Char :=
  if ':' ∈ a.host.toList then a.host.toList else Text.unbracket (Text.trimFront a.host.toList)

/-- A host as written is heard without the blanks and brackets around it. -/
theorem unbracket_trimFront_writtenHost (a : Address) :
    Text.unbracket (Text.trimFront a.writtenHost) = a.heardHost := by
  unfold writtenHost heardHost
  by_cases hcolon : ':' ∈ a.host.toList
  · rw [if_pos hcolon, if_pos hcolon, Text.trimFront_of_bare rfl, Text.unbracket_brackets]
  · rw [if_neg hcolon, if_neg hcolon]

/-- A host is not written with a colon at its end: if it has colons, there is a bracket behind
them. -/
theorem getLast?_writtenHost_ne (a : Address) :
    (Text.trimFront a.writtenHost).getLast? ≠ some ':' := by
  intro hlast
  have hmem : ':' ∈ Text.trimFront a.writtenHost := List.mem_of_getLast? hlast
  have hcolon := (Text.trimFront_suffix _).subset hmem
  unfold writtenHost at hlast hcolon
  split at hcolon
  · rename_i hhost
    rw [if_pos hhost, Text.trimFront_of_bare rfl, ← List.cons_append, List.getLast?_concat] at hlast
    exact absurd (Option.some.inj hlast) (by decide)
  · rename_i hhost
    exact hhost hcolon

/-- **Every written address is read as a matcher**, for its port and for what is heard of its
host. -/
theorem matcher_text (a : Address) :
    AddressMatcher.parse a.text =
      .ok { host := if a.heardHost = [] ∨ a.heardHost = ['*'] then none
                    else some (String.ofList a.heardHost),
            port := some a.port } := by
  have hport : ∀ c ∈ (toString a.port).toList, Text.isBlank c = false := by
    rw [Text.toList_toString_uint16]
    intro c hc
    exact Text.isBlank_of_isDigit (Text.isDigit_of_mem_written hc)
  have htrim : Text.trimChars a.text.toList =
      Text.trimFront a.writtenHost ++ ':' :: (toString a.port).toList := by
    rw [toList_text, Text.trimChars_cut (by decide) hport]
  have hparts := AddressMatcher.parts_cut (Text.colon_notMem_port a.port) a.getLast?_writtenHost_ne
  simp only [AddressMatcher.parse, htrim, hparts, Text.uint16?_toString, AddressMatcher.namedHost,
    unbracket_trimFront_writtenHost]

/-- What is heard is a part of the host. -/
theorem heardHost_infix (a : Address) : a.heardHost <:+: a.host.toList := by
  unfold heardHost
  split
  · exact List.infix_rfl
  · exact (Text.unbracket_infix _).trans (Text.trimFront_suffix _).isInfix

/-- The whole host is heard if it holds a colon, or has neither a blank at its front nor brackets
of its own. -/
theorem heardHost_eq_host_iff {a : Address} :
    a.heardHost = a.host.toList ↔
      ':' ∈ a.host.toList ∨ ¬ Text.BeginsBlank a.host ∧ ¬ Text.IsBracketed a.host := by
  unfold heardHost
  by_cases hcolon : ':' ∈ a.host.toList
  · simp [hcolon]
  · rw [if_neg hcolon, ← Text.trimFront_eq_self_iff, ← Text.unbracket_eq_self_iff]
    constructor
    · intro hheard
      have hinner := (Text.unbracket_infix (Text.trimFront a.host.toList)).length_le
      have hfront : Text.trimFront a.host.toList = a.host.toList := by
        refine (Text.trimFront_suffix _).eq_of_length_le ?_
        rw [hheard] at hinner
        exact hinner
      rw [hfront] at hheard
      exact .inr ⟨hfront, hheard⟩
    · rintro (hmem | ⟨hfront, hbrackets⟩)
      · exact absurd hmem hcolon
      · rw [hfront, hbrackets]

end Address

/-- **Which addresses are matchers for themselves.**  The text of an address is read as a matcher
that accepts those addresses, and no others, that have its port and, in any letter case, its host,
if and only if the host is not empty and not a star, and holds a colon or else neither begins with
a blank nor stands in brackets already. -/
theorem address_is_own_matcher_iff (a : Address) :
    (∃ m, AddressMatcher.parse a.text = .ok m ∧ ∀ b : Address,
        m.accepts b = true ↔ b.port = a.port ∧ Text.sameFolded a.host b.host = true) ↔
      a.host ≠ "" ∧ a.host ≠ "*" ∧
        (':' ∈ a.host.toList ∨ ¬ Text.BeginsBlank a.host ∧ ¬ Text.IsBracketed a.host) := by
  have hempty : a.host = "" ↔ a.host.toList = [] := String.toList_eq_nil_iff.symm
  have hstar : a.host = "*" ↔ a.host.toList = ['*'] := String.toList_inj.symm
  rw [← Address.heardHost_eq_host_iff, a.matcher_text, Ne, Ne, hempty, hstar]
  constructor
  · rintro ⟨m, hm, haccepts⟩
    obtain rfl := Except.ok.inj hm
    by_cases hopen : a.heardHost = [] ∨ a.heardHost = ['*']
    · -- no host was named, so a longer one is accepted too
      rw [if_pos hopen] at haccepts
      have hlonger := (haccepts ⟨a.host ++ "*", a.port⟩).1 (by simp [AddressMatcher.accepts])
      have hlength := Text.sameFolded_length hlonger.2
      simp at hlength
    · rw [if_neg hopen] at haccepts
      have hself : Text.sameFolded a.host (String.ofList a.heardHost) = true :=
        ((haccepts ⟨String.ofList a.heardHost, a.port⟩).1
          (AddressMatcher.accepts_named.2 ⟨rfl, Text.sameFolded_self _⟩)).2
      have hlength := Text.sameFolded_length hself
      rw [String.toList_ofList] at hlength
      have hheard := a.heardHost_infix.eq_of_length hlength.symm
      rw [hheard] at hopen
      exact ⟨fun h => hopen (.inl h), fun h => hopen (.inr h), hheard⟩
  · rintro ⟨hnotEmpty, hnotStar, hheard⟩
    rw [hheard, if_neg (not_or.2 ⟨hnotEmpty, hnotStar⟩), String.ofList_toList]
    exact ⟨_, rfl, fun b => AddressMatcher.accepts_named⟩

/-- A blank at the front is lost, next to a colon it is not; a star names no host. -/
example :
    AddressMatcher.parse (Address.text ⟨" db", 80⟩) = .ok { host := some "db", port := some 80 } ∧
    AddressMatcher.parse (Address.text ⟨" ::1", 80⟩) =
      .ok { host := some " ::1", port := some 80 } ∧
    AddressMatcher.parse (Address.text ⟨"[*]", 80⟩) = .ok { port := some 80 } := by
  decide +kernel

end Wiretap
