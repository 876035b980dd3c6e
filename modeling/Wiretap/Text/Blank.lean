/-!
# Blanks: which characters separate words

Three sets of blank characters meet in this library.

* **Unicode blanks** are the characters with the property White_Space.  Text that a person
  types (a status, a matcher, a setting) is trimmed of these.
* **ASCII blanks** are space, tab, line feed, form feed and carriage return.  These, and not the
  vertical tab, may stand inside a list of placeholders.
* JSON has its own four, which live beside the JSON reader.

`trimChars_of_bare` says that text without blanks at its ends is left alone.
-/

namespace Wiretap.Text

/-- The twenty-five characters with the Unicode property White_Space. -/
def isBlank (c : Char) : Bool :=
  let n := c.toNat
  (0x09 ≤ n && n ≤ 0x0D) || n == 0x20 || n == 0x85 || n == 0xA0 || n == 0x1680 ||
    (0x2000 ≤ n && n ≤ 0x200A) || n == 0x2028 || n == 0x2029 || n == 0x202F ||
    n == 0x205F || n == 0x3000

/-- The five blanks of ASCII; the vertical tab is not one of them. -/
def isAsciiBlank (c : Char) : Bool :=
  c == ' ' || c == '\t' || c == '\n' || c == '\x0c' || c == '\r'

/-- The characters left when the blanks at the front are dropped. -/
def trimFront (cs : List Char) : List Char :=
  cs.dropWhile isBlank

/-- The characters left when the blanks at the back are dropped. -/
def trimBack (cs : List Char) : List Char :=
  (trimFront cs.reverse).reverse

/-- Characters without the blanks at their two ends. -/
def trimChars (cs : List Char) : List Char :=
  trimBack (trimFront cs)

/-- Text without the blanks at its two ends. -/
def trim (s : String) : String :=
  String.ofList (trimChars s.toList)

/-- Text is **bare** when neither its first nor its last character is a blank. -/
def Bare (cs : List Char) : Prop :=
  cs.head?.all (!isBlank ·) = true ∧ cs.getLast?.all (!isBlank ·) = true

/-- Every ASCII blank is a Unicode blank. -/
theorem isBlank_of_isAsciiBlank {c : Char} (h : isAsciiBlank c = true) : isBlank c = true := by
  simp only [isAsciiBlank, Bool.or_eq_true, beq_iff_eq] at h
  rcases h with (((rfl | rfl) | rfl) | rfl) | rfl <;> decide

theorem trimFront_of_bare {cs : List Char} (h : cs.head?.all (!isBlank ·) = true) :
    trimFront cs = cs := by
  cases cs with
  | nil => rfl
  | cons c r =>
    simp only [List.head?_cons, Option.all_some, Bool.not_eq_true'] at h
    simp [trimFront, List.dropWhile, h]

/-- Bare text is its own trimmed form. -/
theorem trimChars_of_bare {cs : List Char} (h : Bare cs) : trimChars cs = cs := by
  have hb : cs.reverse.head?.all (!isBlank ·) = true := by
    simpa [List.head?_reverse] using h.2
  rw [trimChars, trimFront_of_bare h.1, trimBack, trimFront_of_bare hb, List.reverse_reverse]

end Wiretap.Text
