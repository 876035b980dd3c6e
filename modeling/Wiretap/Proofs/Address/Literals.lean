import Mathlib.Data.List.Induction
import Wiretap.Text.Hex
import Wiretap.Proofs.Address.Matcher
import Wiretap.Proofs.Text.Numerals
/-!
# IPv6 literals among addresses and matchers

The text of an IPv6 number is made of groups of hexadecimal digits with colons between them, and at
one place two colons may stand side by side: that is its **gap**.  Matchers and addresses cut a text
at its last colon before they look for brackets.

* In brackets and with a port behind them, a literal is always safe: the last colon is the one
  before the port.
* A literal alone, or in brackets without a port, is safe as the text of a matcher exactly where its
  last two colons stand side by side, and so at most one group is behind the gap (`GapIsLast`).
* Elsewhere the last group is taken for a port.  Four digits or fewer always make a port if they
  are decimal, so the last group passes for one exactly where they are
  (`IsCut.uint16?_eq_none_iff`).  As the text of an address, a literal passes for one then even
  where the gap comes last.

What carries this is that every literal has a last colon with something before it
(`Literal.exists_cut`), and that its signs are neither blanks nor brackets.  `literal_is_cut` puts
it together.
-/

namespace Wiretap

namespace Text

/-- A hexadecimal digit is a decimal one or a letter from `a` to `f` in either case. -/
theorem toNat_of_hexDigit? {c : Char} (h : (hexDigit? c).isSome = true) :
    (48 ≤ c.toNat ∧ c.toNat ≤ 57) ∨ (97 ≤ c.toNat ∧ c.toNat ≤ 102) ∨
      (65 ≤ c.toNat ∧ c.toNat ≤ 70) := by
  unfold hexDigit? at h
  split at h
  · rename_i hdecimal
    exact .inl hdecimal
  · split at h
    · rename_i hlower
      exact .inr (.inl hlower)
    · split at h
      · rename_i hupper
        exact .inr (.inr hupper)
      · cases h

/-- A number is below the power of ten that its digits make room for. -/
theorem ofDigitChars_lt {cs : List Char} (h : ∀ c ∈ cs, c.isDigit = true) :
    Nat.ofDigitChars 10 cs 0 < 10 ^ cs.length := by
  induction cs using List.reverseRecOn with
  | nil => exact Nat.one_pos
  | append_singleton cs c ih =>
    have hcs := ih fun d hd => h d (List.mem_append_left _ hd)
    have hc := toNat_of_isDigit (h c List.mem_concat_self)
    have hzero : '0'.toNat = 48 := rfl
    rw [Nat.ofDigitChars_append, Nat.ofDigitChars_cons, Nat.ofDigitChars_nil, List.length_append,
      List.length_singleton, Nat.pow_succ]
    omega

end Text

namespace Ip

/-- One to four hexadecimal digits. -/
structure IsGroup (g : List Char) : Prop where
  nonempty : g ≠ []
  length_le : g.length ≤ 4
  digits : ∀ c ∈ g, (Text.hexDigit? c).isSome = true

instance (g : List Char) : Decidable (IsGroup g) :=
  decidable_of_iff (g ≠ [] ∧ g.length ≤ 4 ∧ g.all (fun c => (Text.hexDigit? c).isSome) = true)
    ⟨fun ⟨hsome, hlength, hdigits⟩ => ⟨hsome, hlength, List.all_eq_true.1 hdigits⟩,
      fun h => ⟨h.nonempty, h.length_le, List.all_eq_true.2 h.digits⟩⟩

/-- Groups with colons between them. -/
def joined (groups : List (List Char)) : List Char := [':'].intercalate groups

/-- The text form of an IPv6 number: groups with colons between them, and at most one gap.  The
number of groups does not matter here, as long as there is a colon. -/
inductive Literal : List Char → Prop where
  /-- Groups alone. -/
  | whole {groups : List (List Char)} (hgroups : ∀ g ∈ groups, IsGroup g)
      (hcount : 2 ≤ groups.length) : Literal (joined groups)
  /-- Groups with a gap, which may stand at either end. -/
  | gapped {front back : List (List Char)} (hfront : ∀ g ∈ front, IsGroup g)
      (hback : ∀ g ∈ back, IsGroup g) : Literal (joined front ++ ':' :: ':' :: joined back)

/-- The last two colons of the text stand side by side. -/
def GapIsLast (cs : List Char) : Prop :=
  ∃ front last, cs = front ++ ':' :: ':' :: last ∧ ':' ∉ last

/-- The colon before the last one shows at the end of what stands before the last one. -/
theorem gapIsLast_iff_splitLast? {cs : List Char} :
    GapIsLast cs ↔ (Text.splitLast? ':' cs).any (·.1.getLast? == some ':') = true := by
  constructor
  · rintro ⟨front, last, rfl, hlast⟩
    have hsplit : Text.splitLast? ':' (front ++ ':' :: ':' :: last) = some (front ++ [':'], last) :=
      Text.splitLast?_eq_some_iff.2 ⟨by simp, hlast⟩
    rw [hsplit, Option.any_some, List.getLast?_concat, beq_self_eq_true]
  · intro h
    obtain ⟨⟨before, last⟩, hsplit, hcolon⟩ := (Option.any_eq_true _ _).1 h
    obtain ⟨front, rfl⟩ := List.getLast?_eq_some_iff.1 (eq_of_beq hcolon)
    obtain ⟨rfl, hlast⟩ := Text.splitLast?_eq_some_iff.1 hsplit
    exact ⟨front, last, by simp, hlast⟩

instance (cs : List Char) : Decidable (GapIsLast cs) :=
  decidable_of_iff _ gapIsLast_iff_splitLast?.symm

/-- Decimal digits, and one at least. -/
def IsDecimal (cs : List Char) : Prop := cs ≠ [] ∧ ∀ c ∈ cs, c.isDigit = true

/-! ## The signs of a literal -/

/-- A colon or a hexadecimal digit. -/
def isSign (c : Char) : Bool := c == ':' || (Text.hexDigit? c).isSome

/-- A group is made of signs that literals are written with. -/
theorem IsGroup.isSign {g : List Char} (h : IsGroup g) : ∀ c ∈ g, isSign c = true := by
  intro c hc
  rw [Ip.isSign, h.digits c hc, Bool.or_true]

/-- No colon stands inside a group. -/
theorem IsGroup.colon_notMem {g : List Char} (h : IsGroup g) : ':' ∉ g := by
  intro hcolon
  exact absurd (h.digits _ hcolon) (by decide)

/-- The signs of a literal are no blanks, so trimming leaves a literal as it is. -/
theorem isBlank_of_isSign {c : Char} (h : isSign c = true) : Text.isBlank c = false := by
  rw [isSign, Bool.or_eq_true, beq_iff_eq] at h
  rcases h with rfl | hdigit
  · decide
  · have hrange := Text.toNat_of_hexDigit? hdigit
    simp only [Text.isBlank, Bool.or_eq_false_iff, Bool.and_eq_false_iff, decide_eq_false_iff_not,
      beq_eq_false_iff_ne]
    omega

/-- The first of several groups stands before the first colon. -/
theorem joined_cons {rest : List (List Char)} (h : rest ≠ []) (g : List Char) :
    joined (g :: rest) = g ++ ':' :: joined rest := by
  rw [joined, List.intercalate_cons_of_ne_nil h, List.append_assoc, joined, List.singleton_append]

/-- The last of several groups stands behind the last colon. -/
theorem joined_concat {groups : List (List Char)} (h : groups ≠ []) (g : List Char) :
    joined (groups ++ [g]) = joined groups ++ ':' :: g := by
  induction groups with
  | nil => exact absurd rfl h
  | cons first rest ih =>
    by_cases hrest : rest = []
    · subst hrest
      rw [List.singleton_append, joined_cons (List.cons_ne_nil g [])]
      simp [joined]
    · have hmore : rest ++ [g] ≠ [] := List.concat_ne_nil g rest
      rw [List.cons_append, joined_cons hmore, ih hrest, joined_cons hrest, List.append_assoc,
        List.cons_append]

/-- Groups joined by colons are made of signs of literals. -/
theorem isSign_joined {groups : List (List Char)} (h : ∀ g ∈ groups, IsGroup g) :
    ∀ c ∈ joined groups, isSign c = true := by
  induction groups using List.reverseRecOn with
  | nil => exact fun c hc => absurd hc List.not_mem_nil
  | append_singleton groups g ih =>
    have hgroups := ih fun g' hg' => h g' (List.mem_append_left _ hg')
    have hg := (h g List.mem_concat_self).isSign
    intro c hc
    by_cases hnone : groups = []
    · subst hnone
      exact hg c (by simpa [joined] using hc)
    · rw [joined_concat hnone, List.mem_append, List.mem_cons] at hc
      rcases hc with hc | rfl | hc
      · exact hgroups c hc
      · rfl
      · exact hg c hc

/-- A literal is made of signs of literals. -/
theorem Literal.isSign {cs : List Char} (h : Literal cs) : ∀ c ∈ cs, isSign c = true := by
  cases h with
  | whole hgroups _ => exact isSign_joined hgroups
  | gapped hfront hback =>
    intro c hc
    rw [List.mem_append, List.mem_cons, List.mem_cons] at hc
    rcases hc with hc | rfl | rfl | hc
    · exact isSign_joined hfront c hc
    · rfl
    · rfl
    · exact isSign_joined hback c hc

/-! ## The last colon -/

/-- A text of such signs that is cut at its last colon, with something before it, and nothing or a
group behind it. -/
structure IsCut (cs front last : List Char) : Prop where
  signs : ∀ c ∈ cs, isSign c = true
  eq : cs = front ++ ':' :: last
  front_ne_nil : front ≠ []
  last_group : last = [] ∨ IsGroup last

/-- Some groups joined are some text, since no group is empty. -/
theorem joined_ne_nil {groups : List (List Char)} (h : ∀ g ∈ groups, IsGroup g)
    (hsome : groups ≠ []) : joined groups ≠ [] := by
  obtain ⟨g, rest, rfl⟩ := List.exists_cons_of_ne_nil hsome
  have hg := (h g List.mem_cons_self).nonempty
  by_cases hrest : rest = []
  · subst hrest
    simpa [joined] using hg
  · rw [joined_cons hrest]
    simp [hg]

/-- **Every literal has a last colon with something before it.** -/
theorem Literal.exists_cut {cs : List Char} (h : Literal cs) :
    ∃ front last, IsCut cs front last := by
  have hsigns := h.isSign
  cases h with
  | @whole groups hgroups hcount =>
    induction groups using List.reverseRecOn with
    | nil => exact absurd hcount (by decide)
    | append_singleton before last _ =>
      have hbefore : before ≠ [] := by
        rintro rfl
        simp at hcount
      have hfront := joined_ne_nil (fun g hg => hgroups g (List.mem_append_left _ hg)) hbefore
      have hlast := hgroups last List.mem_concat_self
      exact ⟨_, last, hsigns, joined_concat hbefore last, hfront, .inr hlast⟩
  | @gapped front back hfront hback =>
    induction back using List.reverseRecOn with
    | nil =>
      refine ⟨joined front ++ [':'], [], hsigns, ?_, by simp, .inl rfl⟩
      simp [joined]
    | append_singleton before last _ =>
      have hlast := hback last List.mem_concat_self
      by_cases hbefore : before = []
      · subst hbefore
        refine ⟨joined front ++ [':'], last, hsigns, ?_, by simp, .inr hlast⟩
        simp [joined]
      · refine ⟨joined front ++ ':' :: ':' :: joined before, last, hsigns, ?_, by simp, .inr hlast⟩
        rw [joined_concat hbefore]
        simp

namespace IsCut

variable {cs front last : List Char}

/-- A text that is cut at a colon is not empty. -/
theorem ne_nil (h : IsCut cs front last) : cs ≠ [] := by
  rw [h.eq]
  simp

/-- A character that is no sign of literals is not in a literal that is cut. -/
theorem notMem (h : IsCut cs front last) {c : Char} (hc : isSign c = false) : c ∉ cs := by
  intro hmem
  rw [h.signs c hmem] at hc
  cases hc

/-- A character that is no sign of literals is not before the cut. -/
theorem notMem_front (h : IsCut cs front last) {c : Char} (hc : isSign c = false) : c ∉ front := by
  have hcs := h.notMem hc
  rw [h.eq] at hcs
  exact fun hfront => hcs (List.mem_append_left _ hfront)

/-- What stands behind the last colon has no colon. -/
theorem colon_notMem (h : IsCut cs front last) : ':' ∉ last := by
  rcases h.last_group with rfl | hgroup
  · exact List.not_mem_nil
  · exact hgroup.colon_notMem

/-- A literal is cut where a text is cut at its last colon. -/
theorem splitLast? (h : IsCut cs front last) : Text.splitLast? ':' cs = some (front, last) :=
  Text.splitLast?_eq_some_iff.2 ⟨h.eq, h.colon_notMem⟩

/-- The gap stands last exactly where another colon ends what is before the cut. -/
theorem gapIsLast_iff (h : IsCut cs front last) : GapIsLast cs ↔ front.getLast? = some ':' := by
  rw [gapIsLast_iff_splitLast?, h.splitLast?, Option.any_some, beq_iff_eq]

/-- **What the last group is worth as a port**: its number if its digits are decimal, and nothing
otherwise. -/
theorem uint16?_eq_some_iff (h : IsCut cs front last) {q : UInt16} :
    Text.uint16? last = some q ↔ Text.Numeral last q.toNat := by
  rw [Text.uint16?_eq_some_iff]
  refine ⟨fun hnumber => ?_, .bare⟩
  cases hnumber with
  | bare hnumeral => exact hnumeral
  | plus hnumeral =>
    rcases h.last_group with hnone | hgroup
    · cases hnone
    · exact absurd (hgroup.digits '+' List.mem_cons_self) (by decide)

/-- There is no port that a group of four decimal digits is too great for. -/
theorem uint16?_eq_none_iff (h : IsCut cs front last) :
    Text.uint16? last = none ↔ ¬ IsDecimal last := by
  rw [← Option.not_isSome_iff_eq_none, not_iff_not, Option.isSome_iff_exists]
  constructor
  · rintro ⟨q, hq⟩
    have hnumeral := h.uint16?_eq_some_iff.1 hq
    exact ⟨hnumeral.nonempty, hnumeral.digits⟩
  · rintro ⟨hsome, hdigits⟩
    have hgroup := h.last_group.resolve_left hsome
    have hbound : Nat.ofDigitChars 10 last 0 < UInt16.size :=
      calc Nat.ofDigitChars 10 last 0
          < 10 ^ last.length := Text.ofDigitChars_lt hdigits
        _ ≤ 10 ^ 4 := Nat.pow_le_pow_right (by decide) hgroup.length_le
        _ < UInt16.size := by decide
    refine ⟨UInt16.ofNat (Nat.ofDigitChars 10 last 0), h.uint16?_eq_some_iff.2 ⟨hsome, hdigits, ?_⟩⟩
    exact (UInt16.toNat_ofNat_of_lt' hbound).symm

end IsCut

end Ip

namespace Text

/-- A text without an opening bracket does not stand in brackets. -/
theorem unbracket_of_notMem {cs : List Char} (h : '[' ∉ cs) : unbracket cs = cs := by
  rw [unbracket]
  cases hinner : between? '[' ']' cs with
  | none => rfl
  | some inner =>
    rw [between?_eq_some_iff.1 hinner] at h
    exact absurd List.mem_cons_self h

/-- There is no bracket behind a port. -/
theorem uint16?_bracket (cs : List Char) : uint16? (cs ++ [']']) = none := by
  rw [Option.eq_none_iff_forall_ne_some]
  intro q hq
  rcases (uint16?_eq_some_iff.1 hq).plus_or_digit ']' List.mem_concat_self with hplus | hdigit
  · exact absurd hplus (by decide)
  · exact absurd hdigit (by decide)

end Text

namespace AddressMatcher

/-- Where the last two colons stand side by side, nothing is cut off. -/
theorem parts_gap {front back : List Char} (hback : ':' ∉ back)
    (hfront : front.getLast? = some ':') :
    parts (front ++ ':' :: back) = (front ++ ':' :: back, none) := by
  rw [parts, Text.splitLast?_eq_some_iff.2 ⟨rfl, hback⟩]
  exact if_pos hfront

section Unblanked

variable {s : String} {front back : List Char} (htrim : Text.trimChars s.toList = s.toList)
include htrim

/-- Text that nothing is cut off names a host. -/
theorem parse_of_uncut (hparts : parts s.toList = (front, none)) :
    parse s = .ok { host := namedHost front } := by
  simp only [parse, htrim, hparts]

/-- A pattern whose second part is a port is a matcher of its host and this port. -/
theorem parse_of_port (hparts : parts s.toList = (front, some back)) {port : UInt16}
    (hport : Text.uint16? back = some port) :
    parse s = .ok { host := namedHost front, port := some port } := by
  simp only [parse, htrim, hparts, hport]

/-- A pattern whose second part is no port is not read. -/
theorem parse_of_no_port (hparts : parts s.toList = (front, some back))
    (hport : Text.uint16? back = none) : parse s = .error (.invalidPort s) := by
  simp only [parse, htrim, hparts, hport, String.ofList_toList]

end Unblanked

/-- A text that is a host between brackets or bare, without a star, names that host. -/
theorem namedHost_eq_some {text host : List Char} (htext : Text.unbracket text = host)
    (hsome : host ≠ []) (hstar : '*' ∉ host) : namedHost text = some (String.ofList host) := by
  rw [namedHost, htext, if_neg]
  rintro (hnone | rfl)
  · exact hsome hnone
  · exact hstar List.mem_cons_self

end AddressMatcher

namespace Ip.IsCut

open AddressMatcher

variable {h : String} {front last : List Char}

/-- What stands before the cut has no brackets to take off. -/
theorem unbracket_front (hcut : IsCut h.toList front last) : Text.unbracket front = front :=
  Text.unbracket_of_notMem (hcut.notMem_front rfl)

/-! ## A literal alone -/

/-- A literal has no blanks around it. -/
theorem trimChars_eq (hcut : IsCut h.toList front last) : Text.trimChars h.toList = h.toList :=
  Text.trimChars_of_no_blank fun c hc => isBlank_of_isSign (hcut.signs c hc)

/-- A literal whose gap is last is read as a host: what would be its port is empty. -/
theorem parse_of_gap (hcut : IsCut h.toList front last) (hgap : GapIsLast h.toList) :
    parse h = .ok { host := some h } := by
  have hparts : parts h.toList = (h.toList, none) := by
    rw [hcut.eq]
    exact parts_gap hcut.colon_notMem (hcut.gapIsLast_iff.1 hgap)
  have hbare := Text.unbracket_of_notMem (hcut.notMem (c := '[') rfl)
  rw [parse_of_uncut hcut.trimChars_eq hparts,
    namedHost_eq_some hbare hcut.ne_nil (hcut.notMem rfl), String.ofList_toList]

/-- A literal whose gap is not last is taken for a host and a port. -/
theorem parts_of_not_gap (hcut : IsCut h.toList front last) (hgap : ¬ GapIsLast h.toList) :
    parts h.toList = (front, some last) := by
  rw [hcut.eq]
  exact parts_cut hcut.colon_notMem (mt hcut.gapIsLast_iff.2 hgap)

/-- A decimal group at the end is taken for a port. -/
theorem parse_of_port (hcut : IsCut h.toList front last) (hgap : ¬ GapIsLast h.toList)
    {q : UInt16} (hq : Text.uint16? last = some q) :
    parse h = .ok { host := some (String.ofList front), port := some q } := by
  rw [AddressMatcher.parse_of_port hcut.trimChars_eq (hcut.parts_of_not_gap hgap) hq,
    namedHost_eq_some hcut.unbracket_front hcut.front_ne_nil (hcut.notMem_front rfl)]

/-- Then it is not read, where its last group is not a port. -/
theorem parse_of_no_port (hcut : IsCut h.toList front last) (hgap : ¬ GapIsLast h.toList)
    (hnone : Text.uint16? last = none) : parse h = .error (.invalidPort h) :=
  AddressMatcher.parse_of_no_port hcut.trimChars_eq (hcut.parts_of_not_gap hgap) hnone

/-- An address has no eye for the gap. -/
theorem parse?_eq (hcut : IsCut h.toList front last) :
    Address.parse? h = (Text.uint16? last).map fun q => ⟨String.ofList front, q⟩ := by
  rw [Address.parse?, hcut.splitLast?]
  simp only [Option.bind_eq_bind, Option.bind_some, hcut.unbracket_front, List.isEmpty_iff,
    hcut.front_ne_nil, if_false]
  cases Text.uint16? last <;> rfl

/-! ## A literal in brackets -/

/-- The text of a literal between brackets, character by character. -/
theorem toList_bracketed (h : String) : s!"[{h}]".toList = '[' :: (h.toList ++ [']']) := by
  show ("[" ++ h ++ "]").toList = _
  simp

/-- A literal between brackets has its last colon where the bare one has it. -/
theorem bracketed_eq (hcut : IsCut h.toList front last) :
    s!"[{h}]".toList = ('[' :: front) ++ ':' :: (last ++ [']']) := by
  rw [toList_bracketed, hcut.eq]
  simp

/-- A literal between brackets has no blanks around it. -/
theorem trimChars_bracketed (hcut : IsCut h.toList front last) :
    Text.trimChars s!"[{h}]".toList = s!"[{h}]".toList := by
  refine Text.trimChars_of_no_blank fun c hc => ?_
  rw [toList_bracketed, List.mem_cons, List.mem_append, List.mem_singleton] at hc
  rcases hc with rfl | hc | rfl
  · decide
  · exact isBlank_of_isSign (hcut.signs c hc)
  · decide

/-- Behind the last colon of a literal between brackets there is no other. -/
theorem colon_notMem_bracket (hcut : IsCut h.toList front last) : ':' ∉ last ++ [']'] := by
  rw [List.mem_append, List.mem_singleton]
  rintro (hlast | hbracket)
  · exact hcut.colon_notMem hlast
  · exact absurd hbracket (by decide)

/-- The bracket at the front does not hide a colon behind it. -/
theorem gapIsLast_iff_bracketed (hcut : IsCut h.toList front last) :
    GapIsLast h.toList ↔ ('[' :: front).getLast? = some ':' := by
  rw [hcut.gapIsLast_iff, List.getLast?_cons, List.getLast?_eq_some_getLast hcut.front_ne_nil,
    Option.getD_some]

/-- A literal whose gap is last is read between brackets as well. -/
theorem bracketed_of_gap (hcut : IsCut h.toList front last) (hgap : GapIsLast h.toList) :
    parse s!"[{h}]" = .ok { host := some h } := by
  have hparts : parts s!"[{h}]".toList = (s!"[{h}]".toList, none) := by
    rw [hcut.bracketed_eq]
    exact parts_gap hcut.colon_notMem_bracket (hcut.gapIsLast_iff_bracketed.1 hgap)
  have hinner : Text.unbracket s!"[{h}]".toList = h.toList := by
    rw [toList_bracketed, Text.unbracket_brackets]
  rw [parse_of_uncut hcut.trimChars_bracketed hparts,
    namedHost_eq_some hinner hcut.ne_nil (hcut.notMem rfl), String.ofList_toList]

/-- The closing bracket is taken for the end of a port. -/
theorem bracketed_of_not_gap (hcut : IsCut h.toList front last) (hgap : ¬ GapIsLast h.toList) :
    parse s!"[{h}]" = .error (.invalidPort s!"[{h}]") := by
  have hparts : parts s!"[{h}]".toList = ('[' :: front, some (last ++ [']'])) := by
    rw [hcut.bracketed_eq]
    exact parts_cut hcut.colon_notMem_bracket (mt hcut.gapIsLast_iff_bracketed.2 hgap)
  exact AddressMatcher.parse_of_no_port hcut.trimChars_bracketed hparts (Text.uint16?_bracket last)

/-! ## A literal with a port -/

/-- A literal that is cut has a colon. -/
theorem colon_mem (hcut : IsCut h.toList front last) : ':' ∈ h.toList := by
  rw [hcut.eq]
  exact List.mem_append_right _ List.mem_cons_self

/-- In brackets and with a port, a literal is written as an address is. -/
theorem text_eq (hcut : IsCut h.toList front last) (p : UInt16) :
    s!"[{h}]:{p}" = (Address.mk h p).text := (if_pos hcut.colon_mem).symm

/-- Between brackets and with a port, a literal is read as it is written. -/
theorem matcher_with_port (hcut : IsCut h.toList front last) (p : UInt16) :
    parse s!"[{h}]:{p}" = .ok { host := some h, port := some p } := by
  have hheard : (Address.mk h p).heardHost = h.toList := if_pos hcut.colon_mem
  have hstar : h.toList ≠ ['*'] := by
    intro hsame
    have hnot : '*' ∉ h.toList := hcut.notMem rfl
    rw [hsame] at hnot
    exact hnot List.mem_cons_self
  rw [hcut.text_eq, Address.matcher_text, hheard, if_neg (not_or.2 ⟨hcut.ne_nil, hstar⟩),
    String.ofList_toList]

/-- The same holds of addresses. -/
theorem address_with_port (hcut : IsCut h.toList front last) (p : UInt16) :
    Address.parse? s!"[{h}]:{p}" = some ⟨h, p⟩ := by
  have hread : (Address.mk h p).readHost = h.toList := if_pos hcut.colon_mem
  rw [hcut.text_eq, Address.parse?_text, hread, if_neg hcut.ne_nil, String.ofList_toList]

end Ip.IsCut

/-- **Where IPv6 literals are cut.**  Let `h` be an IPv6 literal.

* In brackets and with a port behind them it is read as what it is, a host and a port, by matchers
  and by addresses.
* As a matcher, alone or in brackets, it is read as the literal on any port if and only if its last
  two colons stand side by side.
* It has a last colon.  As an address it is refused if and only if what follows that colon is not
  decimal; where it is, the literal is read as the host before the colon and the port behind it.
* As a matcher, where the gap does not come last, it is read in the same way, and refused where the
  last group is not decimal; in brackets it is always refused. -/
theorem literal_is_cut {h : String} (hlit : Ip.Literal h.toList) (p : UInt16) :
    (AddressMatcher.parse s!"[{h}]:{p}" = .ok { host := some h, port := some p } ∧
      Address.parse? s!"[{h}]:{p}" = some ⟨h, p⟩) ∧
    (AddressMatcher.parse h = .ok { host := some h } ↔ Ip.GapIsLast h.toList) ∧
    (AddressMatcher.parse s!"[{h}]" = .ok { host := some h } ↔ Ip.GapIsLast h.toList) ∧
    ∃ front last : String, h = front ++ ":" ++ last ∧ ':' ∉ last.toList ∧
      (Address.parse? h = none ↔ ¬ Ip.IsDecimal last.toList) ∧
      (∀ q : UInt16, Text.Numeral last.toList q.toNat → Address.parse? h = some ⟨front, q⟩) ∧
      (¬ Ip.GapIsLast h.toList →
        (∀ q : UInt16, Text.Numeral last.toList q.toNat →
          AddressMatcher.parse h = .ok { host := some front, port := some q }) ∧
        (¬ Ip.IsDecimal last.toList → AddressMatcher.parse h = .error (.invalidPort h)) ∧
        AddressMatcher.parse s!"[{h}]" = .error (.invalidPort s!"[{h}]")) := by
  obtain ⟨front, last, hcut⟩ := hlit.exists_cut
  have hdecimal : ∀ q : UInt16, Text.Numeral last q.toNat → Text.uint16? last = some q :=
    fun q => hcut.uint16?_eq_some_iff.2
  have hrefused : ¬ Ip.IsDecimal last → Text.uint16? last = none := hcut.uint16?_eq_none_iff.2
  refine ⟨⟨hcut.matcher_with_port p, hcut.address_with_port p⟩, ?alone, ?bracketed,
    String.ofList front, String.ofList last, ?cut, ?_⟩
  case alone =>
    refine ⟨fun hwhole => ?_, hcut.parse_of_gap⟩
    by_contra hgap
    cases hport : Text.uint16? last with
    | some q =>
      rw [hcut.parse_of_port hgap hport] at hwhole
      cases hwhole
    | none =>
      rw [hcut.parse_of_no_port hgap hport] at hwhole
      cases hwhole
  case bracketed =>
    refine ⟨fun hwhole => ?_, hcut.bracketed_of_gap⟩
    by_contra hgap
    rw [hcut.bracketed_of_not_gap hgap] at hwhole
    cases hwhole
  case cut =>
    rw [← String.toList_inj, hcut.eq]
    simp
  rw [String.toList_ofList]
  refine ⟨hcut.colon_notMem, ?_, ?_, fun hgap => ⟨?_, ?_, hcut.bracketed_of_not_gap hgap⟩⟩
  · rw [hcut.parse?_eq, Option.map_eq_none_iff, hcut.uint16?_eq_none_iff]
  · intro q hq
    rw [hcut.parse?_eq, hdecimal q hq, Option.map_some]
  · intro q hq
    exact hcut.parse_of_port hgap (hdecimal q hq)
  · intro hnot
    exact hcut.parse_of_no_port hgap (hrefused hnot)

/-- The number of a host in a network that is kept for documentation. -/
theorem Ip.literal_documentation : Ip.Literal "2001:db8::1:2".toList := by
  have hfront : ∀ g ∈ [['2', '0', '0', '1'], ['d', 'b', '8']], Ip.IsGroup g := by decide
  have hback : ∀ g ∈ [['1'], ['2']], Ip.IsGroup g := by decide
  exact .gapped hfront hback

theorem literal_is_cut_documentation :
    Ip.Literal "2001:db8::1:2".toList ∧ ¬ Ip.GapIsLast "2001:db8::1:2".toList ∧
    AddressMatcher.parse "[2001:db8::1:2]:80" =
      .ok { host := some "2001:db8::1:2", port := some 80 } ∧
    AddressMatcher.parse "2001:db8::1:2" ≠ .ok { host := some "2001:db8::1:2" } := by
  have hgap : ¬ Ip.GapIsLast "2001:db8::1:2".toList := by decide
  obtain ⟨⟨hmatcher, -⟩, halone, -⟩ := literal_is_cut Ip.literal_documentation 80
  exact ⟨Ip.literal_documentation, hgap, hmatcher, mt halone.1 hgap⟩

/-- **A literal is cut before its last group**, alone as in brackets, and as an address. -/
theorem last_group_is_taken_for_port :
    Ip.Literal "2001:db8::1:2".toList ∧
    AddressMatcher.parse "2001:db8::1:2" = .ok { host := some "2001:db8::1", port := some 2 } ∧
    AddressMatcher.parse "[2001:db8::1:2]" = .error (.invalidPort "[2001:db8::1:2]") ∧
    Address.parse? "2001:db8::1:2" = some ⟨"2001:db8::1", 2⟩ := by
  refine ⟨Ip.literal_documentation, ?_, ?_, ?_⟩
  all_goals decide +kernel

end Wiretap
