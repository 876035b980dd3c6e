import Wiretap.Proofs.Disk.Replacing
import Wiretap.Proofs.Policy.Keeping
/-!
# A policy file is old or new

Saving a book goes through a neighbour of its file, so that a failure, wherever it comes, leaves
the old file and a success leaves the new one.  `policy_file_old_or_new` says this of every tree of
files and directories without links, whatever stands in the way and whatever the disk refuses.

There is one thing that a failure may leave, and it is not a file: directories that were made to
the path.  A path that leads back through one of them may have led nowhere, and then end at
something; it may even end at the directory that was made for it
(`saving_leaves_directory`).
-/

namespace Wiretap

/-- Saving a book replaces its file by its document. -/
theorem Book.saveTo_eq (b : Book) (path : String) {bytes : ByteArray}
    (hbytes : b.registry.toDocument.fileText.toUTF8 = bytes) :
    b.saveTo path = ((b.disk.replace (.ofText path) bytes).1.mapError .disk,
      { b with disk := (b.disk.replace (.ofText path) bytes).2 }) := by
  rw [saveTo, Disk.writeDocument, hbytes]

/-- **A policy file is old or new.**  Let a book that came about by use be saved on a tree of files
and directories, in which there are no links, to a path whose extension is not that of the neighbour.

* The disk is a tree still.  But for the ends of the path and of its neighbour, directories may
  have come where nothing was, and that is all.
* If saving fails, what was at the end of the path is there as it was.  If nothing was, nothing is,
  as long as the path does not lead back or its directories were there.
* If saving succeeds, the document of the book is at the end of the path, in the pretty layout and
  with a line feed; who opens the path finds the entries of the book and whether they are kept; and
  nothing is left of the neighbour. -/
theorem policy_file_old_or_new (b : Book) (path : String) (hb : b.Reachable)
    (htree : b.disk.IsTree) (hext : (Path.ofText path).extension? ≠ some "tmp") :
    let p := Path.ofText path
    let after := (b.saveTo path).2.disk
    after.IsTree ∧
      (∀ l, after.walk p ≠ .ok l → after.walk (p.withExtension "tmp") ≠ .ok l →
        after.get? l = b.disk.get? l ∨
          b.disk.get? l = none ∧ after.get? l = some .directory) ∧
      (∀ e, (b.saveTo path).1 = .error e →
        (∀ node, b.disk.at? p = some node → after.at? p = some node) ∧
          (".." ∉ p.steps ∨ b.disk.at? p.parent = some .directory →
            after.at? p = b.disk.at? p)) ∧
      ((b.saveTo path).1 = .ok () →
        after.at? p = some (.file (b.registry.toDocument.pretty ++ "\n").toUTF8) ∧
          (∃ opened, (b.saveTo path).2.openFile path = .ok opened ∧
            opened.registry.Agrees b.registry) ∧
          ∃ place, after.walk (p.withExtension "tmp") = .ok place ∧ after.get? place = none) := by
  intro p after
  have hagrees := Registry.agrees_ofDocument hb.isFolded
  have hopened : (b.saveTo path).1 = .ok () → ∃ opened,
      (b.saveTo path).2.openFile path = .ok opened ∧ opened.registry.Agrees b.registry := by
    intro hok
    exact ⟨_, Book.openFile_ok (Book.readDocument_saveTo hok), hagrees.entries,
      hagrees.persistent, hagrees.socketStatus, hagrees.dataSourceStatus⟩
  obtain ⟨bytes, hbytes⟩ : ∃ bytes, b.registry.toDocument.fileText.toUTF8 = bytes := ⟨_, rfl⟩
  have hsave := b.saveTo_eq path hbytes
  have hreplaced := Disk.replaced htree hext bytes
  have hafter : after = (b.disk.replace p bytes).2 := by
    show (b.saveTo path).2.disk = _
    rw [hsave]
  have hresult : (b.saveTo path).1 = (b.disk.replace p bytes).1.mapError .disk := by
    rw [hsave]
  have hok_iff : (b.saveTo path).1 = .ok () ↔ (b.disk.replace p bytes).1 = .ok () := by
    rw [hresult]
    cases (b.disk.replace p bytes).1 with
    | error e => simp [Except.mapError]
    | ok _ => simp [Except.mapError]
  rw [hafter]
  refine ⟨hreplaced.tree, hreplaced.elsewhere, fun e hfailed => ?_, fun hok => ?_⟩
  · have hnot : (b.disk.replace p bytes).1 ≠ .ok () := by
      rw [Ne, ← hok_iff, hfailed]
      simp
    have hstays := hreplaced.stays hnot
    exact ⟨fun node hnode => (hstays (.inr (Disk.at?_parent hnode))).trans hnode, hstays⟩
  · have hdone := hok_iff.1 hok
    refine ⟨?_, hopened hok, hreplaced.gone hdone⟩
    rw [hreplaced.done hdone, ← hbytes]
    rfl

/-- A book with one rule, on an empty disk. -/
def closedDatabase : Book :=
  Book.perform {} (.setSocket (some "db") none .closed)

/-- The book with another rule, on the disk that it was saved to, where no file can be moved any
more. -/
def reopenedDatabase : Book :=
  { closedDatabase.perform (.setSocket (some "db") none .opened) with
    disk := { (closedDatabase.saveTo "policies/policy.json").2.disk with fault := some .rename } }

/-- The first rule is saved; saving the other one fails, and the file still holds the first. -/
theorem policy_file_old_or_new_database :
    let p := Path.ofText "policies/policy.json"
    let old := Node.file (closedDatabase.registry.toDocument.pretty ++ "\n").toUTF8
    (closedDatabase.saveTo "policies/policy.json").2.disk.at? p = some old ∧
      (reopenedDatabase.saveTo "policies/policy.json").1 = .error (.disk .refused) ∧
      (reopenedDatabase.saveTo "policies/policy.json").2.disk.at? p = some old := by
  have hnew : closedDatabase.Reachable := (Book.Reachable.new {}).perform _
  have hreopened : reopenedDatabase.Reachable := (hnew.perform _).elsewhere _
  have hrefused : (reopenedDatabase.saveTo "policies/policy.json").1 =
      .error (.disk .refused) := by decide +kernel
  obtain ⟨htree, -, -, hsaved⟩ := policy_file_old_or_new closedDatabase "policies/policy.json"
    hnew Disk.isTree_empty (by decide)
  obtain ⟨hfile, -⟩ := hsaved (by decide +kernel)
  obtain ⟨-, -, hfailed, -⟩ := policy_file_old_or_new reopenedDatabase "policies/policy.json"
    hreopened (fun l node h => htree l node h) (by decide)
  -- A disk that refuses to move files still holds the ones it has.
  obtain ⟨place, hwalk, -⟩ := Disk.exists_of_at? hfile
  have hheld : reopenedDatabase.disk.at? (.ofText "policies/policy.json") =
      some (.file (closedDatabase.registry.toDocument.pretty ++ "\n").toUTF8) :=
    (Disk.at?_congr hwalk (Disk.walk_mono (fun _ h => h) hwalk) rfl).trans hfile
  exact ⟨hfile, hrefused, (hfailed _ hrefused).1 _ hheld⟩

/-- **A failure may leave a directory.**  Nothing is at the end of a path that leads back through a
directory which is not there.  Saving to it makes that directory, and this is the place where the
file was to go. -/
theorem saving_leaves_directory :
    let p := Path.ofText "x/../x"
    let saved := Book.saveTo {} "x/../x"
    p.extension? ≠ some "tmp" ∧ saved.1 = .error (.disk .refused) ∧
      Disk.at? {} p = none ∧ saved.2.disk.at? p = some .directory := by
  decide +kernel

end Wiretap
