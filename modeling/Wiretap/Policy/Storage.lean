import Wiretap.Disk
import Wiretap.Policy.Document
/-!
# Keeping a policy document on disk

A document is kept in a file, in the pretty layout with a line feed behind it.  A file that is not
there stands for the empty document.

Writing goes through a neighbour with the extension `tmp`: the new text is written there and made
sure of, and only then the neighbour takes the place of the file.  So whoever reads the file finds
the old text or the new one; a neighbour that could not take its place stays behind.
-/

namespace Wiretap

/-- Why a policy could not be read or kept. -/
inductive StorageError where
  | disk (error : DiskError)
  | document (error : DocumentError)
  /-- The policy has no place to be kept. -/
  | noPath
  deriving DecidableEq, Repr

/-- The words of the error. -/
def StorageError.message : StorageError → String
  | .disk error => s!"policy file I/O error: {error.message}"
  | .document error => s!"policy file is not valid: {error.message}"
  | .noPath => "no policy file configured"

namespace Document

/-- The text of the file that keeps the document. -/
def fileText (d : Document) : String := d.pretty ++ "\n"

end Document

namespace Disk

/-- The document in the file at the end of a path; a file that is not there holds the empty one. -/
def readDocument (d : Disk) (p : Path) : Except StorageError Document :=
  match d.read p with
  | .ok bytes => (Document.ofBytes bytes).mapError .document
  | .error .notFound => .ok {}
  | .error .refused => .error (.disk .refused)

/-- Replaces the bytes of a file by way of a neighbour that has the extension `tmp`. -/
def replace (d : Disk) (p : Path) (bytes : ByteArray) : Except DiskError Unit × Disk :=
  match d.makeDirectories p.parent with
  | (.error e, d) => (.error e, d)
  | (.ok (), d) =>
    match d.create (p.withExtension "tmp") with
    | (.error e, d) => (.error e, d)
    | (.ok place, d) =>
      match d.write place bytes with
      | (.error e, d) => (.error e, d)
      | (.ok (), d) =>
        match d.sync with
        | .error e => (.error e, d)
        | .ok () => d.rename place p

/-- Keeps a document in the file at the end of a path. -/
def writeDocument (d : Disk) (p : Path) (document : Document) : Except DiskError Unit × Disk :=
  d.replace p document.fileText.toUTF8

end Disk

end Wiretap
