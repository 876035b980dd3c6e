import Wiretap.Text.AsciiCase
import Wiretap.Proofs.Text.Numerals
/-!
# Letter case, blanks and numbers do not meet

Words are read in any letter case, and with blanks around them.  Changing the case of a letter makes
no blank of it and no digit, so a text can be trimmed before or after its letters are changed, and
a number is the same number (`trimChars_map_toUpper`, `unsigned_map_toUpper`).
-/

namespace Wiretap.Text

/-- A letter that was made a capital is made small as if nothing had been done before. -/
theorem toLower_toUpper (c : Char) : c.toUpper.toLower = c.toLower := by
  refine Char.toNat_inj.1 ?_
  simp only [toNat_toLower, toNat_toUpper]
  grind

/-- A letter that was made small is made a capital as if nothing had been done before. -/
theorem toUpper_toLower (c : Char) : c.toLower.toUpper = c.toUpper := by
  refine Char.toNat_inj.1 ?_
  simp only [toNat_toLower, toNat_toUpper]
  grind

/-- Capitals stay as they are. -/
theorem toUpper_toUpper (c : Char) : c.toUpper.toUpper = c.toUpper := by
  refine Char.toNat_inj.1 ?_
  simp only [toNat_toUpper]
  grind

/-- Texts that agree in upper case agree in lower case. -/
theorem map_toUpper_eq_iff {cs ds : List Char} :
    cs.map Char.toUpper = ds.map Char.toUpper ↔ cs.map Char.toLower = ds.map Char.toLower := by
  have hlower : ∀ l : List Char, (l.map Char.toUpper).map Char.toLower = l.map Char.toLower := by
    intro l
    rw [List.map_map]
    exact List.map_congr_left fun c _ => toLower_toUpper c
  have hupper : ∀ l : List Char, (l.map Char.toLower).map Char.toUpper = l.map Char.toUpper := by
    intro l
    rw [List.map_map]
    exact List.map_congr_left fun c _ => toUpper_toLower c
  constructor
  · intro h
    rw [← hlower, h, hlower]
  · intro h
    rw [← hupper, h, hupper]

/-- Texts are the same up to case exactly if they are the same in upper case. -/
theorem sameFolded_iff_toUpper {a b : String} :
    sameFolded a b = true ↔ a.toList.map Char.toUpper = b.toList.map Char.toUpper := by
  rw [sameFolded, beq_iff_eq, map_toUpper_eq_iff]

/-! ## Blanks -/

/-- A letter stands between `'A'` and `'Z'` or between `'a'` and `'z'`. -/
theorem isAlpha_iff {c : Char} :
    c.isAlpha = true ↔ (65 ≤ c.toNat ∧ c.toNat ≤ 90) ∨ (97 ≤ c.toNat ∧ c.toNat ≤ 122) := by
  have hupper : c.isUpper = true ↔ 65 ≤ c.toNat ∧ c.toNat ≤ 90 := decide_eq_true_iff
  have hlower : c.isLower = true ↔ 97 ≤ c.toNat ∧ c.toNat ≤ 122 :=
    Bool.and_eq_true_iff.trans (and_congr decide_eq_true_iff decide_eq_true_iff)
  show (c.isUpper || c.isLower) = true ↔ _
  rw [Bool.or_eq_true, hupper, hlower]

/-- Letters stay letters, and nothing else becomes one. -/
theorem isAlpha_toUpper (c : Char) : c.toUpper.isAlpha = c.isAlpha := by
  rw [Bool.eq_iff_iff, isAlpha_iff, isAlpha_iff, toNat_toUpper]
  grind

/-- What is no small letter stays as it is. -/
theorem toUpper_of_not_isAlpha {c : Char} (h : c.isAlpha = false) : c.toUpper = c := by
  rw [← Bool.not_eq_true, isAlpha_iff] at h
  refine Char.toNat_inj.1 ?_
  rw [toNat_toUpper, if_neg fun hsmall => h (.inr hsmall)]

/-- No letter is a blank. -/
theorem isBlank_of_isAlpha {c : Char} (h : c.isAlpha = true) : isBlank c = false := by
  have hrange := isAlpha_iff.1 h
  simp only [isBlank, Bool.or_eq_false_iff, Bool.and_eq_false_iff, decide_eq_false_iff_not,
    beq_eq_false_iff_ne]
  omega

/-- Changing the case of a letter makes no blank of it. -/
theorem isBlank_toUpper (c : Char) : isBlank c.toUpper = isBlank c := by
  cases halpha : c.isAlpha with
  | true =>
    have halpha' : c.toUpper.isAlpha = true := by rw [isAlpha_toUpper, halpha]
    rw [isBlank_of_isAlpha halpha, isBlank_of_isAlpha halpha']
  | false => rw [toUpper_of_not_isAlpha halpha]

/-- Leading blanks can be cut off before or after letters are changed. -/
theorem trimFront_map_toUpper (cs : List Char) :
    trimFront (cs.map Char.toUpper) = (trimFront cs).map Char.toUpper := by
  have hsame : isBlank ∘ Char.toUpper = isBlank := funext isBlank_toUpper
  rw [trimFront, trimFront, List.dropWhile_map, hsame]

/-- A text can be trimmed before or after its letters are changed. -/
theorem trimChars_map_toUpper (cs : List Char) :
    trimChars (cs.map Char.toUpper) = (trimChars cs).map Char.toUpper := by
  rw [trimChars, trimChars, trimBack, trimBack, trimFront_map_toUpper, ← List.map_reverse,
    trimFront_map_toUpper, List.map_reverse]

/-- Whether the ends of a text are blank does not depend on the case of its letters. -/
theorem bare_map_toUpper {cs : List Char} : Bare (cs.map Char.toUpper) ↔ Bare cs := by
  have hsame : ∀ end? : Option Char,
      (end?.map Char.toUpper).all (!isBlank ·) = end?.all (!isBlank ·) := by
    intro end?
    cases end? with
    | none => rfl
    | some c => simp only [Option.map_some, Option.all_some, isBlank_toUpper]
  rw [Bare, Bare, List.head?_map, List.getLast?_map, hsame, hsame]

/-- Blanks behind a text go when its end is trimmed. -/
theorem trimBack_append {behind : List Char} (hbehind : ∀ c ∈ behind, isBlank c = true)
    (cs : List Char) : trimBack (cs ++ behind) = trimBack cs := by
  have hreverse : ∀ c ∈ behind.reverse, isBlank c = true := by
    intro c hc
    exact hbehind c (List.mem_reverse.1 hc)
  rw [trimBack, List.reverse_append, trimFront_append hreverse, trimBack]

/-- Blanks around a text go when it is trimmed. -/
theorem trimChars_append {before cs behind : List Char} (hbefore : ∀ c ∈ before, isBlank c = true)
    (hcs : Bare cs) (hbehind : ∀ c ∈ behind, isBlank c = true) :
    trimChars (before ++ (cs ++ behind)) = cs := by
  rw [trimChars, trimFront_append hbefore]
  cases cs with
  | nil =>
    have hnone : trimFront behind = [] := List.dropWhile_eq_nil_iff.2 hbehind
    rw [List.nil_append, hnone]
    rfl
  | cons c rest =>
    have hfront : trimFront (c :: rest ++ behind) = c :: rest ++ behind := trimFront_of_bare hcs.1
    have hback : trimBack (c :: rest) = c :: rest := by
      have hbare := trimChars_of_bare hcs
      rw [trimChars, trimFront_of_bare hcs.1] at hbare
      exact hbare
    rw [hfront, trimBack_append hbehind, hback]

/-! ## Numbers -/

/-- What is no letter in upper case was none before, and did not change. -/
theorem toUpper_eq_self {c : Char} (h : c.toUpper.isAlpha = false) : c.toUpper = c := by
  rw [isAlpha_toUpper] at h
  exact toUpper_of_not_isAlpha h

/-- No digit is a letter. -/
theorem not_isAlpha_of_isDigit {c : Char} (h : c.isDigit = true) : c.isAlpha = false := by
  obtain ⟨hlow, hhigh⟩ := toNat_of_isDigit h
  rw [← Bool.not_eq_true]
  intro halpha
  have hrange := isAlpha_iff.1 halpha
  omega

/-- There are no letters in a number. -/
theorem Unsigned.not_isAlpha {cs : List Char} {n : Nat} (h : Unsigned cs n) :
    ∀ c ∈ cs, c.isAlpha = false := by
  intro c hc
  rcases h.plus_or_digit c hc with rfl | hdigit
  · decide
  · exact not_isAlpha_of_isDigit hdigit

/-- A number is the same number in any letter case. -/
theorem unsigned_map_toUpper {cs : List Char} {n : Nat} :
    Unsigned (cs.map Char.toUpper) n ↔ Unsigned cs n := by
  constructor
  · intro h
    have hsame : cs.map Char.toUpper = cs := by
      refine (List.map_congr_left fun c hc => ?_).trans (List.map_id cs)
      exact toUpper_eq_self (h.not_isAlpha _ (List.mem_map_of_mem hc))
    rw [hsame] at h
    exact h
  · intro h
    have hsame : cs.map Char.toUpper = cs := by
      refine (List.map_congr_left fun c hc => ?_).trans (List.map_id cs)
      refine toUpper_eq_self ?_
      rw [isAlpha_toUpper]
      exact h.not_isAlpha c hc
    rw [hsame]
    exact h

end Wiretap.Text
