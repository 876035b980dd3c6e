import Wiretap.Proofs.Text.Decimal
/-!
# Which texts are numbers

A **numeral** is one ASCII digit or more, and its value is that of its digits in base ten.  An
unsigned number is a numeral, maybe with a plus sign before it; a signed one may have a minus sign
instead.  These are grammars, and say nothing of how a number is read.

Reading takes every text of its grammar that is within its bound, and no other
(`uint16?_eq_some_iff`, `uint32?_eq_some_iff`, `int64?_eq_some_iff`).  The decimal text of a number is
one of them (`signed_toString`).
-/

namespace Wiretap.Text

/-- One digit or more, and their value. -/
structure Numeral (cs : List Char) (n : Nat) : Prop where
  nonempty : cs ≠ []
  digits : ∀ c ∈ cs, c.isDigit = true
  value : Nat.ofDigitChars 10 cs 0 = n

/-- A numeral after an optional plus sign. -/
inductive Unsigned : List Char → Nat → Prop where
  | bare {cs : List Char} {n : Nat} (h : Numeral cs n) : Unsigned cs n
  | plus {cs : List Char} {n : Nat} (h : Numeral cs n) : Unsigned ('+' :: cs) n

/-- A numeral after an optional sign. -/
inductive Signed : List Char → Int → Prop where
  | unsigned {cs : List Char} {n : Nat} (h : Unsigned cs n) : Signed cs n
  | minus {cs : List Char} {n : Nat} (h : Numeral cs n) : Signed ('-' :: cs) (-n)

/-- What a number may begin with. -/
def beginsNumber (c : Char) : Bool := c == '+' || c == '-' || c.isDigit

/-- A number is written as a numeral of it. -/
theorem numeral_written (n : Nat) : Numeral (written n) n := by
  refine ⟨Nat.toDigits_ne_nil, ?_, Nat.ofDigitChars_ten_toDigits⟩
  intro c hc
  exact isDigit_of_mem_written hc

theorem isDigit_of_digit? {c : Char} {d : Nat} (h : digit? c = some d) : c.isDigit = true := by
  unfold digit? at h
  split at h
  · rename_i hrange
    rw [Char.isDigit, Bool.and_eq_true, decide_eq_true_eq, decide_eq_true_eq]
    exact hrange
  · cases h

/-- Only digits are read as digits. -/
theorem isDigit_of_digitsFrom {cs : List Char} {value n : Nat}
    (h : digitsFrom value cs = some n) : ∀ c ∈ cs, c.isDigit = true := by
  induction cs generalizing value with
  | nil => exact fun c hc => (List.not_mem_nil hc).elim
  | cons c rest ih =>
    obtain ⟨d, hd, hrest⟩ := Option.bind_eq_some_iff.1 h
    intro c' hc'
    rcases List.mem_cons.1 hc' with rfl | hc'
    · exact isDigit_of_digit? hd
    · exact ih hrest c' hc'

/-- Digits are read as the number that they are a numeral of. -/
theorem digits?_eq_some_iff {cs : List Char} {n : Nat} :
    digits? cs = some n ↔ Numeral cs n := by
  cases cs with
  | nil =>
    constructor
    · intro h
      cases h
    · intro h
      exact absurd rfl h.nonempty
  | cons c rest =>
    show digitsFrom 0 (c :: rest) = some n ↔ _
    constructor
    · intro h
      have hdigits := isDigit_of_digitsFrom h
      rw [digitsFrom_of_digits hdigits, Option.some.injEq] at h
      exact ⟨List.cons_ne_nil c rest, hdigits, h⟩
    · intro h
      rw [digitsFrom_of_digits h.digits, h.value]

theorem Numeral.head {c : Char} {rest : List Char} {n : Nat} (h : Numeral (c :: rest) n) :
    c.isDigit = true := h.digits c List.mem_cons_self

/-- What is read without a minus sign is what may be written so. -/
theorem unsigned?_eq_some_iff {cs : List Char} {n : Nat} :
    unsigned? cs = some n ↔ Unsigned cs n := by
  constructor
  · intro h
    unfold unsigned? at h
    split at h
    · exact .plus (digits?_eq_some_iff.1 h)
    · exact .bare (digits?_eq_some_iff.1 h)
  · intro h
    cases h with
    | plus h => exact digits?_eq_some_iff.2 h
    | bare h =>
      unfold unsigned?
      split
      · exact absurd h.head (by decide)
      · exact digits?_eq_some_iff.2 h

theorem Unsigned.exists_head {cs : List Char} {n : Nat} (h : Unsigned cs n) :
    ∃ c rest, cs = c :: rest ∧ (c = '+' ∨ c.isDigit = true) := by
  cases h with
  | plus h => exact ⟨'+', _, rfl, .inl rfl⟩
  | bare h =>
    obtain ⟨c, rest, rfl⟩ := List.exists_cons_of_ne_nil h.nonempty
    exact ⟨c, rest, rfl, .inr h.head⟩

/-- A number begins with a sign or a digit. -/
theorem Signed.exists_head {cs : List Char} {n : Int} (h : Signed cs n) :
    ∃ c rest, cs = c :: rest ∧ beginsNumber c = true := by
  cases h with
  | minus h => exact ⟨'-', _, rfl, rfl⟩
  | unsigned h =>
    obtain ⟨c, rest, rfl, hc⟩ := h.exists_head
    refine ⟨c, rest, rfl, ?_⟩
    rcases hc with rfl | hdigit
    · rfl
    · rw [beginsNumber, hdigit, Bool.or_true]

/-- A number without a sign, taken as one that may have a sign. -/
theorem cast_eq_some_iff {found : Option Nat} {m : Int} :
    (do return (← found : Int)) = some m ↔ ∃ n : Nat, found = some n ∧ (n : Int) = m := by
  cases found with
  | none => simp
  | some n => simp

/-- What is read with a sign is what may be written with one. -/
theorem signed?_eq_some_iff {cs : List Char} {n : Int} : signed? cs = some n ↔ Signed cs n := by
  constructor
  · intro h
    unfold signed? at h
    split at h
    · obtain ⟨m, hm, rfl⟩ := Option.map_eq_some_iff.1 h
      obtain ⟨k, hk, rfl⟩ := cast_eq_some_iff.1 hm
      exact .minus (digits?_eq_some_iff.1 hk)
    · obtain ⟨m, hm, rfl⟩ := Option.map_eq_some_iff.1 h
      obtain ⟨k, hk, rfl⟩ := cast_eq_some_iff.1 hm
      exact .unsigned (unsigned?_eq_some_iff.1 hk)
  · intro h
    cases h with
    | minus h =>
      have hread := cast_eq_some_iff.2 ⟨_, digits?_eq_some_iff.2 h, rfl⟩
      exact Option.map_eq_some_iff.2 ⟨_, hread, rfl⟩
    | unsigned h =>
      unfold signed?
      split
      · obtain ⟨c, rest, hcs, hc⟩ := h.exists_head
        cases hcs
        rcases hc with hc | hc
        · exact absurd hc (by decide)
        · exact absurd hc (by decide)
      · have hread := cast_eq_some_iff.2 ⟨_, unsigned?_eq_some_iff.2 h, rfl⟩
        exact Option.map_eq_some_iff.2 ⟨_, hread, rfl⟩

/-- Under a bound, what is read is what may be written and is not above the bound. -/
theorem unsignedUpTo?_eq_some_iff {bound n : Nat} {cs : List Char} :
    unsignedUpTo? bound cs = some n ↔ Unsigned cs n ∧ n ≤ bound := by
  rw [unsignedUpTo?, Option.filter_eq_some_iff, unsigned?_eq_some_iff, decide_eq_true_eq]

/-- A number that is read into a word is one that the word holds. -/
theorem word_eq_some_iff {ω : Type} {size : Nat} {ofNat : Nat → ω} {toNat : ω → Nat}
    (hlt : ∀ w, toNat w < size) (hto : ∀ m, m < size → toNat (ofNat m) = m)
    (hof : ∀ w, ofNat (toNat w) = w) {cs : List Char} {w : ω} :
    (unsignedUpTo? (size - 1) cs).map ofNat = some w ↔ Unsigned cs (toNat w) := by
  have hsize : ∀ m, m ≤ size - 1 ↔ m < size := fun m => by
    have := hlt w
    omega
  rw [Option.map_eq_some_iff]
  constructor
  · rintro ⟨m, hm, rfl⟩
    obtain ⟨hnumber, hbound⟩ := unsignedUpTo?_eq_some_iff.1 hm
    rw [hto m ((hsize m).1 hbound)]
    exact hnumber
  · intro h
    exact ⟨toNat w, unsignedUpTo?_eq_some_iff.2 ⟨h, (hsize _).2 (hlt w)⟩, hof w⟩

/-- **Which texts are ports**: the numbers that sixteen bits hold. -/
theorem uint16?_eq_some_iff {cs : List Char} {n : UInt16} :
    uint16? cs = some n ↔ Unsigned cs n.toNat :=
  word_eq_some_iff UInt16.toNat_lt (fun _ => UInt16.toNat_ofNat_of_lt') fun _ => UInt16.ofNat_toNat

/-- **Which texts are delays**: the numbers that thirty-two bits hold. -/
theorem uint32?_eq_some_iff {cs : List Char} {n : UInt32} :
    uint32? cs = some n ↔ Unsigned cs n.toNat :=
  word_eq_some_iff UInt32.toNat_lt (fun _ => UInt32.toNat_ofNat_of_lt') fun _ => UInt32.ofNat_toNat

/-- **Which texts are codes**: the numbers that sixty-four bits hold with their sign. -/
theorem int64?_eq_some_iff {cs : List Char} {n : Int} :
    int64? cs = some n ↔ Signed cs n ∧ -2 ^ 63 ≤ n ∧ n < 2 ^ 63 := by
  have hleast : Int64.minValue.toInt = -2 ^ 63 := rfl
  have hgreatest : Int64.maxValue.toInt = 2 ^ 63 - 1 := rfl
  rw [int64?, Option.filter_eq_some_iff, signed?_eq_some_iff, decide_eq_true_eq, hleast, hgreatest]
  refine and_congr_right fun _ => and_congr_right fun _ => ?_
  omega

theorem toList_toString_negSucc (n : Nat) :
    (toString (Int.negSucc n)).toList = '-' :: written (n + 1) := by
  show ("-" ++ toString (n + 1)).toList = _
  rw [String.toList_append, toList_toString_nat]
  rfl

/-- The decimal text of a number says that number. -/
theorem signed_toString (n : Int) : Signed (toString n).toList n := by
  cases n with
  | ofNat n =>
    show Signed (toString n).toList n
    rw [toList_toString_nat]
    exact .unsigned (.bare (numeral_written n))
  | negSucc n =>
    rw [toList_toString_negSucc]
    exact .minus (numeral_written (n + 1))

/-- The characters of an unsigned number. -/
theorem Unsigned.plus_or_digit {cs : List Char} {n : Nat} (h : Unsigned cs n) :
    ∀ c ∈ cs, c = '+' ∨ c.isDigit = true := by
  intro c hc
  cases h with
  | bare h => exact .inr (h.digits c hc)
  | plus h =>
    rcases List.mem_cons.1 hc with rfl | hc
    · exact .inl rfl
    · exact .inr (h.digits c hc)

/-- There are no blanks in a number. -/
theorem Unsigned.not_isBlank {cs : List Char} {n : Nat} (h : Unsigned cs n) :
    ∀ c ∈ cs, isBlank c = false := by
  intro c hc
  rcases h.plus_or_digit c hc with rfl | hdigit
  · decide
  · exact isBlank_of_isDigit hdigit

theorem Signed.not_isBlank {cs : List Char} {n : Int} (h : Signed cs n) :
    ∀ c ∈ cs, isBlank c = false := by
  cases h with
  | unsigned h => exact h.not_isBlank
  | minus h =>
    intro c hc
    rcases List.mem_cons.1 hc with rfl | hc
    · decide
    · exact isBlank_of_isDigit (h.digits c hc)

end Wiretap.Text
