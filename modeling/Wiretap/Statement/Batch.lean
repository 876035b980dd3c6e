/-!
# The text of a batch

A batch of statements is accounted as one statement.  Its text names each distinct statement
once, in the order of first appearance, with `; ` between them; one that comes several times is
followed by how often it comes.

`multiplicities` is the view behind the text, and `size_multiplicities` says that nothing of the
batch is lost in it.
-/

namespace Wiretap.Batch

/-- Counts one more appearance of `sql`. -/
def note (sql : String) : List (String × Nat) → List (String × Nat)
  | [] => [(sql, 1)]
  | row :: rest => if row.1 = sql then (row.1, row.2 + 1) :: rest else row :: note sql rest

/-- The distinct texts in the order of first appearance, each with how often it comes. -/
def multiplicities (batch : List String) : List (String × Nat) :=
  batch.foldl (fun rows sql => note sql rows) []

/-- A text with its number of appearances, where that is not one. -/
def annotated (row : String × Nat) : String :=
  if 1 < row.2 then s!"{row.1} /*{row.2} times*/" else row.1

/-- The text under which a batch is accounted. -/
def describe (batch : List String) : String :=
  String.intercalate "; " ((multiplicities batch).map annotated)

/-- How many appearances the rows count in all. -/
def size (rows : List (String × Nat)) : Nat := rows.foldr (fun row n => row.2 + n) 0

theorem size_note (sql : String) (rows : List (String × Nat)) :
    size (note sql rows) = size rows + 1 := by
  induction rows with
  | nil => rfl
  | cons row rest ih =>
    unfold note
    split
    · simp only [size, List.foldr_cons]
      omega
    · simp only [size, List.foldr_cons] at ih ⊢
      omega

/-- The numbers of appearances add up to the length of the batch. -/
theorem size_multiplicities (batch : List String) :
    size (multiplicities batch) = batch.length := by
  have general : ∀ rows : List (String × Nat),
      size (batch.foldl (fun rows sql => note sql rows) rows) = size rows + batch.length := by
    induction batch with
    | nil => intro rows; rfl
    | cons sql rest ih =>
      intro rows
      simp only [List.foldl_cons, List.length_cons]
      rw [ih, size_note]
      omega
  have hall := general []
  rw [show size [] = 0 from rfl, Nat.zero_add] at hall
  exact hall

end Wiretap.Batch
