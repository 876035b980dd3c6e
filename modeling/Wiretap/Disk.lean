import Wiretap.Disk.Path
import Wiretap.Table
/-!
# A disk: files and directories

A disk holds nodes at **locations**: the names on the way from the directory that paths start from.
That directory, and whatever two dots lead to above it, is always there.  A node is a file or a
directory and stands at one location: there are no links, neither symbolic ones nor two names for one
file.  Walking along a path goes through directories only; a name of more than 255 bytes is refused
where it is reached, and a path with a zero byte, or one that is too long, at once.

An operation that fails tells two causes apart: there is nothing at the place, or the disk refuses
for any other reason.  A disk may have a **fault**, one kind of step that it refuses from now on;
writing may then stop in the middle.

`get?_put_other` says that writing at one location leaves all others alone.
-/

namespace Wiretap

/-- The way to a node from the directory that paths start from. -/
structure Location where
  /-- The number of names, by which most locations are told apart at once. -/
  depth : Nat := 0
  /-- The names on the way, the last one first.  Two dots stand only at its beginning. -/
  names : List String := []
  deriving DecidableEq, Repr, Inhabited

namespace Location

/-- The directory that paths start from. -/
def start : Location := {}

/-- Whether this is the directory that paths start from, or one above it. -/
def isAbove (l : Location) : Bool := l.names.head?.all (· == "..")

/-- What has a name in the directory at a location. -/
def child (l : Location) (name : String) : Location := ⟨l.depth + 1, name :: l.names⟩

/-- The directory that holds the node at a location. -/
def back (l : Location) : Location :=
  if l.isAbove then l.child ".." else ⟨l.depth - 1, l.names.tail⟩

end Location

/-- What stands at a location; never a link. -/
inductive Node where
  | file (bytes : ByteArray)
  | directory
  deriving Inhabited

instance : DecidableEq Node
  | .file a, .file b =>
    match ByteArray.decEq a b with
    | isTrue h => isTrue (congrArg Node.file h)
    | isFalse h => isFalse fun heq => h (Node.file.inj heq)
  | .directory, .directory => isTrue rfl
  | .file _, .directory => isFalse nofun
  | .directory, .file _ => isFalse nofun

/-- Why an operation failed. -/
inductive DiskError where
  /-- There is nothing at the place. -/
  | notFound
  /-- The disk refuses. -/
  | refused
  deriving DecidableEq, Repr, Inhabited

/-- The words of the error. -/
def DiskError.message : DiskError → String
  | .notFound => "no such file or directory"
  | .refused => "the disk refuses"

/-- A kind of step that a disk refuses. -/
inductive Fault where
  /-- Making one directory more, after so many on one way. -/
  | makeDirectory (made : Nat)
  /-- Making or emptying a file. -/
  | create
  /-- Writing more than so many bytes. -/
  | write (kept : Nat)
  /-- Making sure that what was written is kept. -/
  | sync
  /-- Giving a file another name. -/
  | rename
  deriving DecidableEq, Repr, Inhabited

/-- Files and directories. -/
structure Disk where
  nodes : Table Location Node := .empty
  fault : Option Fault := none
  deriving Inhabited

namespace Disk

/-- The node at a location. -/
def get? (d : Disk) (place : Location) : Option Node :=
  if place.isAbove then some .directory else d.nodes.get? place

/-- The disk with a node put at a location. -/
def put (d : Disk) (place : Location) (node : Node) : Disk :=
  { d with nodes := d.nodes.insert place node }

/-- The disk without the node at a location. -/
def remove (d : Disk) (place : Location) : Disk :=
  { d with nodes := d.nodes.erase place }

/-- Whether a name is short enough to be given. -/
def fits (name : String) : Bool := name.utf8ByteSize ≤ 255

/-- Whether a path is refused as it is written. -/
def rejects (p : Path) : Bool := p.isLong || p.steps.any fun step => '\x00' ∈ step.toList

/-- The location that the given steps lead to from a directory.  There may be nothing at it. -/
def walkFrom (d : Disk) (place : Location) : List String → Except DiskError Location
  | [] => .ok place
  | step :: rest =>
    match d.get? place with
    | none => .error .notFound
    | some (.file _) => .error .refused
    | some .directory =>
      if step = ".." then d.walkFrom place.back rest
      else if fits step then d.walkFrom (place.child step) rest
      else .error .refused

/-- The location that a path leads to. -/
def walk (d : Disk) (p : Path) : Except DiskError Location :=
  if rejects p then .error .refused else d.walkFrom .start p.steps

/-- The bytes of the file at the end of a path. -/
def read (d : Disk) (p : Path) : Except DiskError ByteArray :=
  match d.walk p with
  | .error e => .error e
  | .ok place =>
    match d.get? place with
    | none => .error .notFound
    | some .directory => .error .refused
    | some (.file bytes) => if p.toDirectory then .error .refused else .ok bytes

/-- Makes every directory that is missing on a way.  `made` directories were made on it so far. -/
def makeDirectoriesFrom (d : Disk) (place : Location) (made : Nat) :
    List String → Except DiskError Unit × Disk
  | [] => (.ok (), d)
  | step :: rest =>
    if step = ".." then d.makeDirectoriesFrom place.back made rest
    else
      let next := place.child step
      match d.get? next with
      | some .directory => d.makeDirectoriesFrom next made rest
      | some (.file _) => (.error .refused, d)
      | none =>
        if !fits step || d.fault == some (.makeDirectory made) then (.error .refused, d)
        else (d.put next .directory).makeDirectoriesFrom next (made + 1) rest

/-- Makes every directory that is missing on a path. -/
def makeDirectories (d : Disk) (p : Path) : Except DiskError Unit × Disk :=
  if rejects p then (.error .refused, d) else d.makeDirectoriesFrom .start 0 p.steps

/-- Makes an empty file, or empties the one that is there; the location of the file. -/
def create (d : Disk) (p : Path) : Except DiskError Location × Disk :=
  match d.walk p with
  | .error e => (.error e, d)
  | .ok place =>
    if d.get? place = some .directory ∨ p.toDirectory ∨ d.fault = some .create then
      (.error .refused, d)
    else (.ok place, d.put place (.file .empty))

/-- Writes bytes into the empty file at a location. -/
def write (d : Disk) (place : Location) (bytes : ByteArray) : Except DiskError Unit × Disk :=
  match d.fault with
  | some (.write kept) =>
    if kept < bytes.size then (.error .refused, d.put place (.file (bytes.extract 0 kept)))
    else (.ok (), d.put place (.file bytes))
  | _ => (.ok (), d.put place (.file bytes))

/-- Makes sure that what was written is kept. -/
def sync (d : Disk) : Except DiskError Unit :=
  if d.fault = some .sync then .error .refused else .ok ()

/-- Moves the node at a location to the end of a path, where no directory may stand. -/
def rename (d : Disk) (place : Location) (p : Path) : Except DiskError Unit × Disk :=
  match d.walk p with
  | .error e => (.error e, d)
  | .ok target =>
    match d.get? place with
    | none => (.error .notFound, d)
    | some node =>
      if d.get? target = some .directory ∨ p.toDirectory ∨ d.fault = some .rename then
        (.error .refused, d)
      else (.ok (), (d.remove place).put target node)

/-- Writes a file without further care. -/
def writeFile (d : Disk) (p : Path) (bytes : ByteArray) : Except DiskError Unit × Disk :=
  match d.create p with
  | (.error e, d) => (.error e, d)
  | (.ok place, d) => d.write place bytes

/-- The names in the directory that paths start from, in order. -/
def startNames (d : Disk) : List String :=
  (d.nodes.keys.filterMap fun place =>
    match place.names with
    | [name] => some name
    | _ => none).mergeSort fun a b => (compare a b).isLE

/-- A location that was written to holds what was written. -/
theorem get?_put_self (d : Disk) {place : Location} (h : place.isAbove = false) (node : Node) :
    (d.put place node).get? place = some node := by
  simp [get?, put, h, Table.insert, Table.get?_alter_self]

/-- Writing at one location leaves all others alone. -/
theorem get?_put_other (d : Disk) {place other : Location} (h : place ≠ other) (node : Node) :
    (d.put place node).get? other = d.get? other := by
  unfold get? put
  split
  · rfl
  · exact Table.get?_alter_other _ (by simpa using h) _

end Disk

end Wiretap
