import Wiretap.Text.Blank
/-!
# The normal form of a statement text

Texts that differ only in the length of a placeholder list, such as `id in (?, ?, ?)` and
`id IN (?,?)`, are accounted as one statement, `id in (?)`.

A **placeholder list** is a blank, the word `in` in any letter case, and in one pair of
parentheses two or more question marks with commas between them; ASCII blanks may stand around
every sign.  The text is read from the left: a list found at a blank is replaced, and reading goes
on behind its closing parenthesis.

The reading of a list is a small machine (`Seek`) with one state for each kind of sign that may
come next; `listEnd?` runs it and gives what stands behind the list.
-/

namespace Wiretap.Normal

/-- What may come next inside a placeholder list, counted from its blank on. -/
inductive Seek where
  /-- The letter `i`. -/
  | letterI
  /-- The letter `n`. -/
  | letterN
  /-- The opening parenthesis. -/
  | opening
  /-- A question mark; `before` tells whether one was read already. -/
  | mark (before : Bool)
  /-- A comma or the closing parenthesis; `enough` tells whether two question marks were read. -/
  | separator (enough : Bool)
  deriving DecidableEq, Repr

/-- What stands behind the placeholder list whose rest is sought at the front of `cs`. -/
def listEnd? : Seek → List Char → Option (List Char)
  | _, [] => none
  | .letterI, c :: r => if c.toLower = 'i' then listEnd? .letterN r else none
  | .letterN, c :: r => if c.toLower = 'n' then listEnd? .opening r else none
  | .opening, c :: r =>
    if Text.isAsciiBlank c then listEnd? .opening r
    else if c = '(' then listEnd? (.mark false) r
    else none
  | .mark before, c :: r =>
    if Text.isAsciiBlank c then listEnd? (.mark before) r
    else if c = '?' then listEnd? (.separator before) r
    else none
  | .separator enough, c :: r =>
    if Text.isAsciiBlank c then listEnd? (.separator enough) r
    else if c = ',' then listEnd? (.mark true) r
    else if c = ')' ∧ enough then some r
    else none

/-- What stands behind a list is shorter than the text that the list begins. -/
theorem length_listEnd? {seek : Seek} {cs rest : List Char} (h : listEnd? seek cs = some rest) :
    rest.length < cs.length := by
  induction cs generalizing seek with
  | nil => cases seek <;> simp [listEnd?] at h
  | cons c r ih =>
    rw [List.length_cons]
    cases seek <;> simp only [listEnd?] at h <;> (repeat' split at h)
    all_goals first
      | exact Nat.lt_succ_of_lt (ih h)
      | (cases h; exact Nat.lt_succ_self _)
      | cases h

/-- What every placeholder list is replaced by. -/
def standIn : List Char := " in (?)".toList

/-- The text with every placeholder list replaced; `fuel` bounds the number of steps, of which no
text takes more than it has characters. -/
def replaceLists : Nat → List Char → List Char
  | 0, cs => cs
  | _, [] => []
  | fuel + 1, c :: r =>
    match if Text.isAsciiBlank c then listEnd? .letterI r else none with
    | some rest => standIn ++ replaceLists fuel rest
    | none => c :: replaceLists fuel r

end Wiretap.Normal

namespace Wiretap

/-- The normal form of a statement text: every list of two or more placeholders is written
` in (?)`. -/
def normalSql (sql : String) : String :=
  String.ofList (Normal.replaceLists sql.toList.length sql.toList)

end Wiretap
