import Mathlib.Data.List.TakeWhile
import Mathlib.Data.Nat.Digits.Defs
import Wiretap.Text.Blank
import Wiretap.Text.Decimal
/-!
# Written numbers are read back

A number is written with the digits that `toString` gives it.  Reading takes any digits; of those
that were written it makes the number again (`digits?_toDigits`), and a word of sixteen or of
thirty-two bits is within its bound by itself (`uint16?_toString`, `uint32?_toString`).
-/

namespace Wiretap.Text

/-- The digits of a number, as it is written. -/
abbrev written (n : Nat) : List Char := Nat.toDigits 10 n

theorem isDigit_of_mem_written {n : Nat} {c : Char} (h : c ∈ written n) : c.isDigit = true :=
  Nat.isDigit_of_mem_toDigits (by decide) (by decide) h

/-- A digit stands between `'0'` and `'9'`. -/
theorem toNat_of_isDigit {c : Char} (h : c.isDigit = true) : 48 ≤ c.toNat ∧ c.toNat ≤ 57 := by
  rw [Char.isDigit, Bool.and_eq_true, decide_eq_true_eq, decide_eq_true_eq] at h
  exact h

theorem digit?_of_isDigit {c : Char} (h : c.isDigit = true) :
    digit? c = some (c.toNat - '0'.toNat) := if_pos (toNat_of_isDigit h)

/-- Digits are read from the left, whatever stands before them. -/
theorem digitsFrom_of_digits {cs : List Char} (h : ∀ c ∈ cs, c.isDigit = true) (value : Nat) :
    digitsFrom value cs = some (Nat.ofDigitChars 10 cs value) := by
  induction cs generalizing value with
  | nil => rfl
  | cons c rest ih =>
    have hrest : ∀ d ∈ rest, d.isDigit = true := fun d hd => h d (List.mem_cons_of_mem _ hd)
    rw [digitsFrom, digit?_of_isDigit (h c List.mem_cons_self), Option.bind_some, ih hrest,
      Nat.ofDigitChars_cons]

/-- A number that is written is read back. -/
theorem digits?_written (n : Nat) : digits? (written n) = some n := by
  have hdigits := digitsFrom_of_digits (fun c hc => isDigit_of_mem_written (n := n) hc) 0
  rw [Nat.ofDigitChars_ten_toDigits] at hdigits
  cases hcs : written n with
  | nil => exact absurd hcs Nat.toDigits_ne_nil
  | cons c rest =>
    rw [hcs] at hdigits
    exact hdigits

/-- A written number begins with no sign. -/
theorem unsigned?_written (n : Nat) : unsigned? (written n) = some n := by
  have hdigits := digits?_written n
  unfold unsigned?
  split
  · rename_i rest hcs
    have hplus : '+' ∈ written n := by
      rw [hcs]
      exact List.mem_cons_self
    exact absurd (isDigit_of_mem_written hplus) (by decide)
  · exact hdigits

theorem unsignedUpTo?_written {n bound : Nat} (h : n ≤ bound) :
    unsignedUpTo? bound (written n) = some n := by
  rw [unsignedUpTo?, unsigned?_written]
  simp [h]

theorem toList_toString_nat (n : Nat) : (toString n).toList = written n := by
  rw [Nat.toString_eq_ofList_toDigits, String.toList_ofList]

theorem toList_toString_uint16 (n : UInt16) : (toString n).toList = written n.toNat :=
  toList_toString_nat n.toNat

theorem toList_toString_uint32 (n : UInt32) : (toString n).toList = written n.toNat :=
  toList_toString_nat n.toNat

theorem uint16?_toString (n : UInt16) : uint16? (toString n).toList = some n := by
  have hbound : n.toNat ≤ UInt16.size - 1 := Nat.le_pred_of_lt n.toNat_lt
  rw [toList_toString_uint16, uint16?, unsignedUpTo?_written hbound, Option.map_some,
    UInt16.ofNat_toNat]

theorem uint32?_toString (n : UInt32) : uint32? (toString n).toList = some n := by
  have hbound : n.toNat ≤ UInt32.size - 1 := Nat.le_pred_of_lt n.toNat_lt
  rw [toList_toString_uint32, uint32?, unsignedUpTo?_written hbound, Option.map_some,
    UInt32.ofNat_toNat]

/-! ## Blanks -/

theorem isBlank_of_isDigit {c : Char} (h : c.isDigit = true) : isBlank c = false := by
  obtain ⟨hlow, hhigh⟩ := toNat_of_isDigit h
  simp only [isBlank, Bool.or_eq_false_iff, Bool.and_eq_false_iff, decide_eq_false_iff_not,
    beq_eq_false_iff_ne]
  omega

/-- A text without blanks has none at its ends. -/
theorem bare_of_no_blank {cs : List Char} (h : ∀ c ∈ cs, isBlank c = false) : Bare cs := by
  refine ⟨?_, ?_⟩
  · rw [Option.all_eq_true]
    intro c hc
    rw [h c (List.mem_of_head? hc)]
    rfl
  · rw [Option.all_eq_true]
    intro c hc
    rw [h c (List.mem_of_getLast? hc)]
    rfl

theorem trimFront_append {before : List Char} (hbefore : ∀ c ∈ before, isBlank c = true)
    (cs : List Char) : trimFront (before ++ cs) = trimFront cs :=
  List.dropWhile_append_of_pos hbefore

/-- Trimming stops in the first of two texts if it leaves something of it. -/
theorem trimFront_append_of_ne_nil {front : List Char} (h : trimFront front ≠ [])
    (back : List Char) : trimFront (front ++ back) = trimFront front ++ back := by
  rw [trimFront] at h
  rw [trimFront, List.dropWhile_append, if_neg (mt List.isEmpty_iff.1 h), trimFront]

/-- Trimming the front stops at the first character that is no blank. -/
theorem trimFront_append_cons {c : Char} (hc : isBlank c = false) (front back : List Char) :
    trimFront (front ++ c :: back) = trimFront front ++ c :: back := by
  by_cases h : trimFront front = []
  · have hstop : trimFront (c :: back) = c :: back :=
      List.dropWhile_cons_of_neg (ne_true_of_eq_false hc)
    rw [trimFront_append (List.dropWhile_eq_nil_iff.1 h), hstop, h, List.nil_append]
  · exact trimFront_append_of_ne_nil h _

/-- Text without a blank is left alone by trimming. -/
theorem trimChars_of_no_blank {cs : List Char} (h : ∀ c ∈ cs, isBlank c = false) :
    trimChars cs = cs := trimChars_of_bare (bare_of_no_blank h)

theorem trimChars_written (n : Nat) : trimChars (written n) = written n :=
  trimChars_of_no_blank fun _ hc => isBlank_of_isDigit (isDigit_of_mem_written hc)

end Wiretap.Text
