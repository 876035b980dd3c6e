/-!
# Letter case within ASCII

Hosts, keywords and status names are compared without regard to the case of the letters `A` to
`Z`; every other character, an accented letter too, stands for itself only.  `sameFolded_iff`
says that comparing in this way is comparing the folded forms.

What a change of case does to a character is read off its number (`toNat_toUpper`,
`toNat_toLower`).
-/

namespace Wiretap.Text

/-- Text with `A` to `Z` in lower case. -/
def lowerAscii (s : String) : String :=
  String.ofList (s.toList.map Char.toLower)

/-- Two texts are the same up to the case of their ASCII letters. -/
def sameFolded (a b : String) : Bool :=
  a.toList.map Char.toLower == b.toList.map Char.toLower

/-- Small letters go thirty-two places down when they are made capitals; nothing else moves. -/
theorem toNat_toUpper (c : Char) :
    c.toUpper.toNat = if 97 ≤ c.toNat ∧ c.toNat ≤ 122 then c.toNat - 32 else c.toNat := by
  unfold Char.toUpper
  by_cases hsmall : 'a'.val ≤ c.val ∧ c.val ≤ 'z'.val
  · have hnumber : 97 ≤ c.toNat ∧ c.toNat ≤ 122 := hsmall
    rw [dif_pos hsmall, if_pos hnumber]
    show (c.val + ('A'.val - 'a'.val)).toNat = c.val.toNat - 32
    have hlow : 97 ≤ c.val.toNat := hnumber.1
    have hhigh : c.val.toNat ≤ 122 := hnumber.2
    have hdown : ('A'.val - 'a'.val).toNat = 4294967264 := rfl
    rw [UInt32.toNat_add, hdown]
    omega
  · have hnumber : ¬ (97 ≤ c.toNat ∧ c.toNat ≤ 122) := hsmall
    rw [dif_neg hsmall, if_neg hnumber]

/-- Capitals go thirty-two places up when they are made small; nothing else moves. -/
theorem toNat_toLower (c : Char) :
    c.toLower.toNat = if 65 ≤ c.toNat ∧ c.toNat ≤ 90 then c.toNat + 32 else c.toNat := by
  unfold Char.toLower
  by_cases hcapital : c.val ≥ 'A'.val ∧ c.val ≤ 'Z'.val
  · have hnumber : 65 ≤ c.toNat ∧ c.toNat ≤ 90 := hcapital
    rw [dif_pos hcapital, if_pos hnumber]
    show (c.val + ('a'.val - 'A'.val)).toNat = c.val.toNat + 32
    have hhigh : c.val.toNat ≤ 90 := hnumber.2
    have hup : ('a'.val - 'A'.val).toNat = 32 := rfl
    rw [UInt32.toNat_add, hup]
    omega
  · have hnumber : ¬ (65 ≤ c.toNat ∧ c.toNat ≤ 90) := hcapital
    rw [dif_neg hcapital, if_neg hnumber]

/-- Texts are the same up to case exactly if they are the same in lower case. -/
theorem sameFolded_iff {a b : String} : sameFolded a b = true ↔ lowerAscii a = lowerAscii b := by
  simp [sameFolded, lowerAscii, String.ofList_inj]

/-- A text is the same as itself. -/
theorem sameFolded_self (a : String) : sameFolded a a = true := by
  simp [sameFolded]

end Wiretap.Text
