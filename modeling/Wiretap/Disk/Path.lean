import Wiretap.Text.Pieces
/-!
# Paths through a file tree

A path is written as pieces with slashes between them.  Empty pieces and single dots lead nowhere,
two dots lead back, and every other piece is a name.  A path whose text ends in a slash or a dot
must end at a directory.  What leads nowhere still counts where a path is too long.

The last name of a path has an **extension**: what stands behind its last dot, unless nothing
stands before that dot.  Writing a file safely goes through a neighbour that has another extension
(`withExtension`), which is in the same directory (`parent_withExtension`).
-/

namespace Wiretap

/-- A way through a file tree, as it is written. -/
structure Path where
  /-- What stands between the slashes. -/
  pieces : List String
  deriving DecidableEq, Repr, Inhabited

namespace Path

/-- The pieces between the slashes; a text without a slash is one piece. -/
def split : List Char → List (List Char)
  | [] => [[]]
  | '/' :: r => [] :: split r
  | c :: r =>
    match split r with
    | [] => [[c]]
    | p :: ps => (c :: p) :: ps

/-- The path that a text writes. -/
def ofText (s : String) : Path := ⟨(split s.toList).map String.ofList⟩

/-- Whether a piece leads nowhere. -/
def isIdle (piece : String) : Bool := piece == "" || piece == "."

/-- The pieces that lead somewhere. -/
def steps (p : Path) : List String := p.pieces.filter (!isIdle ·)

/-- Whether the way must end at a directory. -/
def toDirectory (p : Path) : Bool := p.pieces.getLast?.all isIdle

/-- The number of bytes that the path is written with. -/
def size (p : Path) : Nat :=
  p.pieces.foldr (fun piece n => piece.utf8ByteSize + 1 + n) 0 - 1

/-- Whether the path is written with more bytes than a path may have. -/
def isLong (p : Path) : Bool := 4095 < p.size

/-- The pieces without those at the end that lead nowhere. -/
def trimmed (pieces : List String) : List String :=
  (pieces.reverse.dropWhile isIdle).reverse

/-- The pieces before the last one that leads somewhere. -/
def front (p : Path) : List String := (trimmed p.pieces).dropLast

/-- The name at the end of the path, if it ends with one. -/
def name? (p : Path) : Option String := (trimmed p.pieces).getLast?.filter (· != "..")

/-- The path to the directory that holds the end of the path. -/
def parent (p : Path) : Path := ⟨trimmed p.front⟩

/-- A name without its extension. -/
def stem (name : String) : String :=
  match Text.splitLast? '.' name.toList with
  | some (front, _) => if front.isEmpty then name else String.ofList front
  | none => name

/-- The name of a neighbour with the given extension.  Where the stem is a dot and nothing follows
the name, taking the old extension away leaves two dots, and these lead back and take no
extension. -/
def neighbour (p : Path) (name extension : String) : String :=
  if stem name = "." ∧ !p.toDirectory then ".." else s!"{stem name}.{extension}"

/-- The path to the neighbour with the same stem and the given extension; a path without a name
stays as it is. -/
def withExtension (p : Path) (extension : String) : Path :=
  match p.name? with
  | none => p
  | some name => ⟨p.front ++ [p.neighbour name extension]⟩

/-- The neighbour with an extension is a piece of a path in its own right. -/
theorem isIdle_neighbour (p : Path) (name : String) {extension : String} (h : extension ≠ "") :
    isIdle (p.neighbour name extension) = false := by
  unfold neighbour
  split
  · decide
  · have hn : extension.length ≠ 0 := by simpa using h
    have hl : ∀ s : String, s.length ≤ 1 → s!"{stem name}.{extension}" ≠ s := by
      intro s hs he
      have := congrArg String.length he
      simp only [toString, String.length_append, show ".".length = 1 from rfl] at this
      omega
    simp [isIdle, hl "" (by decide), hl "." (by decide)]

/-- A list of pieces that ends in one that counts is trimmed already. -/
theorem trimmed_concat {pieces : List String} {piece : String} (h : isIdle piece = false) :
    trimmed (pieces ++ [piece]) = pieces ++ [piece] := by
  simp [trimmed, h]

/-- A neighbour is in the same directory. -/
theorem parent_withExtension (p : Path) {extension : String} (h : extension ≠ "") :
    (p.withExtension extension).parent = p.parent := by
  unfold withExtension
  split
  · rfl
  · rename_i name _
    show Path.mk (trimmed (trimmed (p.front ++ [p.neighbour name extension])).dropLast) = _
    rw [trimmed_concat (isIdle_neighbour p name h), List.dropLast_concat]
    rfl

end Path

end Wiretap
