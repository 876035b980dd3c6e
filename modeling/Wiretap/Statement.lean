import Wiretap.Text.Blank
import Wiretap.Text.AsciiCase
import Wiretap.Thread
/-!
# Statements: kinds and identities

A statement is of the kind that its first word says, whatever the case of its letters; the word
ends at the first Unicode blank.  Two kinds are never read off a text: `system`, for driver calls
that are no SQL, and `any`, which only serves to ask for every SQL statement at once.

`classify_ne_any` and `classify_ne_system` say the latter.
-/

namespace Wiretap

/-- The kind of an executed statement. -/
inductive StatementKind where
  | select
  | insert
  | update
  | delete
  | merge
  | other
  | system
  | any
  deriving DecidableEq, Repr, Inhabited

namespace StatementKind

/-- The kind in the words of a report. -/
def text : StatementKind → String
  | select => "SELECT"
  | insert => "INSERT"
  | update => "UPDATE"
  | delete => "DELETE"
  | merge => "MERGE"
  | other => "OTHER"
  | system => "SYSTEM"
  | any => "ANY"

/-- The first word of a text, in lower case. -/
def firstWord (cs : List Char) : List Char :=
  ((Text.trimFront cs).takeWhile (!Text.isBlank ·)).map Char.toLower

/-- The kind that the first word of the text says. -/
def classifyChars (cs : List Char) : StatementKind :=
  let word := String.ofList (firstWord cs)
  if word = "select" then select
  else if word = "insert" then insert
  else if word = "update" then update
  else if word = "delete" then delete
  else if word = "merge" then merge
  else other

/-- The kind of an SQL text. -/
def classify (sql : String) : StatementKind := classifyChars sql.toList

/-- Whether a statement of kind `observed` counts for the kind asked for. -/
def covers (asked observed : StatementKind) : Bool :=
  match asked with
  | any => observed != system
  | kind => kind == observed

/-- No text is of any kind at once. -/
theorem classify_ne_any (sql : String) : classify sql ≠ any := by
  simp only [classify, classifyChars]
  repeat' split
  all_goals decide

/-- No text is a driver call. -/
theorem classify_ne_system (sql : String) : classify sql ≠ system := by
  simp only [classify, classifyChars]
  repeat' split
  all_goals decide

end StatementKind

/-- One accounted statement: its normal text and kind, who ran it, and from where. -/
structure StatementId where
  sql : String
  kind : StatementKind
  owner : Thread
  trace : Option String := none
  deriving Repr, Inhabited

namespace StatementId

/-- What an identity is told apart by. -/
def key (s : StatementId) : String × StatementKind × Nat × Option String :=
  (s.sql, s.kind, s.owner.id, s.trace)

instance : BEq StatementId := ⟨fun a b => a.key == b.key⟩

/-- Identities are equal when their keys are; the names of threads take no part. -/
theorem beq_iff {a b : StatementId} : (a == b) = true ↔ a.key = b.key := by
  show (a.key == b.key) = true ↔ _
  exact beq_iff_eq

instance : EquivBEq StatementId where
  rfl := beq_iff.2 rfl
  symm h := beq_iff.2 (beq_iff.1 h).symm
  trans h h' := beq_iff.2 ((beq_iff.1 h).trans (beq_iff.1 h'))

/-- The identity without its call site. -/
def withoutTrace (s : StatementId) : StatementId := { s with trace := none }

/-- By text, kind, thread and call site, those without one first. -/
def order (a b : StatementId) : Ordering :=
  (compare a.sql b.sql).then <| (compare a.kind.text b.kind.text).then <|
    (compare a.owner.id b.owner.id).then (compare a.trace b.trace)

end StatementId

end Wiretap
