import Mathlib.Logic.Relation
import Wiretap.Proofs.Disk
import Wiretap.Proofs.Policy.RoundTrip
/-!
# A persistent policy and its file stay in step

A book that is kept writes its file after every change and at no other time.  A lookup is a change
only when it notes something new, so most lookups write nothing, and the file must be right without
that.  A book is **in step** with a path (`Book.InStep`) when it is to be kept there and whoever
opens the path finds the entries of the book, to be kept like them.

* `inStep_keep` — one successful writing brings a book in step;
* `inStep_perform` — an operation changes the rules and writes, or does neither;
* `policy_written_through` — a book gets in step by being switched on or opened, and then stays in
  step through every operation whose writing succeeds.
-/

namespace Wiretap

/-- A document that was kept is read back. -/
theorem Disk.readDocument_of_writeDocument {d d' : Disk} {p : Path} {document : Document}
    (h : d.writeDocument p document = (.ok (), d')) : d'.readDocument p = .ok document := by
  rw [Disk.readDocument, Disk.read_of_replace h]
  dsimp only
  rw [Document.ofBytes_fileText]
  rfl

namespace Book

variable {b : Book} {path : String}

/-- **In step.**  The book is to be kept at a path, and opening the path gives the same entries,
with their marks, to be kept as well. -/
structure InStep (b : Book) (path : String) : Prop where
  persistent : b.registry.persistent = true
  storage : b.registry.storage = some path
  file : ∃ opened, b.openFile path = .ok opened ∧
    opened.registry.entries = b.registry.entries ∧ opened.registry.persistent = true

/-- A policy file that is read is opened, and remembered as the place to keep to. -/
theorem openFile_ok {document : Document}
    (h : b.disk.readDocument (.ofText path) = .ok document) :
    b.openFile path =
      .ok { b with registry := { Registry.ofDocument document with storage := some path } } := by
  rw [openFile, h]
  rfl

/-- An opened book is folded, so a book in step is. -/
theorem InStep.isFolded (h : b.InStep path) : b.registry.IsFolded := by
  obtain ⟨opened, hopen, hentries, -⟩ := h.file
  obtain ⟨document, -, rfl⟩ := Except.map_eq_ok_iff.1 hopen
  exact Registry.IsFolded.of_entries (Registry.isFolded_ofDocument document) hentries

/-- What a book was saved to holds its document. -/
theorem readDocument_saveTo (h : (b.saveTo path).1 = .ok ()) :
    (b.saveTo path).2.disk.readDocument (.ofText path) = .ok b.registry.toDocument := by
  unfold saveTo at h ⊢
  cases hwrite : b.disk.writeDocument (.ofText path) b.registry.toDocument with
  | mk result disk =>
    rw [hwrite] at h
    cases result with
    | error e => cases h
    | ok done => exact Disk.readDocument_of_writeDocument hwrite

/-- **One successful writing brings a book in step.** -/
theorem inStep_keep (hpersistent : b.registry.persistent = true)
    (hstorage : b.registry.storage = some path) (hfolded : b.registry.IsFolded)
    (hsave : b.save.1 = .ok ()) : b.keep.InStep path := by
  have hsaved : b.save = b.saveTo path := by rw [save, hstorage]
  have hkeep : b.keep = (b.saveTo path).2 := by rw [keep, if_pos hpersistent, hsaved]
  have hregistry : b.keep.registry = b.registry := registry_keep b
  have hagrees := Registry.agrees_ofDocument hfolded
  rw [hsaved] at hsave
  have hread : b.keep.disk.readDocument (.ofText path) = .ok b.registry.toDocument := by
    rw [hkeep]
    exact readDocument_saveTo hsave
  refine ⟨by rw [hregistry, hpersistent], by rw [hregistry, hstorage], _, openFile_ok hread, ?_, ?_⟩
  · rw [hregistry]
    exact hagrees.entries
  · exact hagrees.persistent.trans hpersistent

/-! ## Operations -/

/-- The book with the rules that an operation changes, before it is kept; nothing where the
operation finds all rules as they should be. -/
def changed? (b : Book) : PolicyOp → Option Book
  | .setSocket host port status =>
    some { b with registry := b.registry.setSocket (.of host port) status }
  | .setDataSource url user status =>
    some { b with registry := b.registry.setDataSource ⟨url, user⟩ status }
  | .resolveSocket host port =>
    if b.registry.sockets.contains (.exact host port) then none
    else some { b with registry := b.registry.noteSocket host port }
  | .resolveDataSource url user =>
    if b.registry.dataSources.contains ⟨some url, user⟩ then none
    else some { b with registry := b.registry.noteDataSource url user }
  | .clear => none

/-- **An operation changes the rules and keeps the book, or does neither.** -/
theorem perform_eq {op : PolicyOp} (hclear : op ≠ .clear) (b : Book) :
    b.perform op = ((b.changed? op).map keep).getD b := by
  cases op with
  | setSocket host port status => rfl
  | setDataSource url user status => rfl
  | resolveSocket host port =>
    show b.noteSocket host port = _
    by_cases hold : b.registry.sockets.contains (.exact host port) = true
    · simp only [noteSocket, changed?, hold, if_true, Option.map_none, Option.getD_none]
    · simp only [noteSocket, changed?, hold, if_false, Option.map_some, Option.getD_some,
        Bool.false_eq_true]
  | resolveDataSource url user =>
    show b.noteDataSource url user = _
    by_cases hold : b.registry.dataSources.contains ⟨some url, user⟩ = true
    · simp only [noteDataSource, changed?, hold, if_true, Option.map_none, Option.getD_none]
    · simp only [noteDataSource, changed?, hold, if_false, Option.map_some, Option.getD_some,
        Bool.false_eq_true]
  | clear => exact absurd rfl hclear

/-- A change of rules changes neither whether nor where the book is kept. -/
theorem settings_changed? {op : PolicyOp} {c : Book} (h : b.changed? op = some c) :
    c.registry.persistent = b.registry.persistent ∧ c.registry.storage = b.registry.storage := by
  cases op with
  | setSocket host port status =>
    cases h
    exact ⟨rfl, rfl⟩
  | setDataSource url user status =>
    cases h
    exact ⟨rfl, rfl⟩
  | resolveSocket host port =>
    simp only [changed?] at h
    split at h
    · cases h
    · rename_i hnew
      cases h
      simp [Registry.noteSocket, hnew]
  | resolveDataSource url user =>
    simp only [changed?] at h
    split at h
    · cases h
    · rename_i hnew
      cases h
      simp [Registry.noteDataSource, hnew]
  | clear => cases h

/-- The writing that an operation asks for, if it asks for one, succeeds. -/
def Writes (b : Book) (op : PolicyOp) : Prop :=
  ∀ c, b.changed? op = some c → c.save.1 = .ok ()

/-- **An operation whose writing succeeds keeps a book in step.**  One that changes nothing writes
nothing, and need not. -/
theorem inStep_perform (h : b.InStep path) {op : PolicyOp} (hclear : op ≠ .clear)
    (hwrites : b.Writes op) : (b.perform op).InStep path := by
  have hperform := perform_eq hclear b
  cases hchanged : b.changed? op with
  | none =>
    rw [hchanged] at hperform
    rw [hperform]
    exact h
  | some c =>
    rw [hchanged] at hperform
    replace hperform : b.perform op = c.keep := hperform
    obtain ⟨hpersistent, hstorage⟩ := settings_changed? hchanged
    have hfolded : c.registry.IsFolded := by
      rw [← registry_keep c, ← hperform]
      exact isFolded_perform h.isFolded op
    rw [hperform]
    exact inStep_keep (hpersistent.trans h.persistent) (hstorage.trans h.storage) hfolded
      (hwrites c hchanged)

/-- Whatever happens to the disk elsewhere leaves a book in step. -/
theorem inStep_elsewhere (h : b.InStep path) {disk : Disk}
    (hread : disk.read (.ofText path) = b.disk.read (.ofText path)) :
    InStep { b with disk := disk } path := by
  obtain ⟨opened, hopen, hentries, hpersistent⟩ := h.file
  obtain ⟨document, hdocument, rfl⟩ := Except.map_eq_ok_iff.1 hopen
  have hsame : disk.readDocument (.ofText path) = .ok document := by
    rw [← hdocument, Disk.readDocument, hread]
    rfl
  exact ⟨h.persistent, h.storage, _, openFile_ok hsame, hentries, hpersistent⟩

/-- A book that is switched on and written is in step. -/
theorem inStep_setPersistent (hfolded : b.registry.IsFolded)
    (hstorage : b.registry.storage = some path)
    (hsave : (save { b with registry := { b.registry with persistent := true } }).1 = .ok ()) :
    (b.setPersistent true).InStep path :=
  inStep_keep rfl hstorage hfolded hsave

/-- A book that is opened, and that its file wants to be kept, is in step. -/
theorem inStep_openFile {opened : Book} (hopen : b.openFile path = .ok opened)
    (hpersistent : opened.registry.persistent = true) : opened.InStep path := by
  obtain ⟨document, hdocument, rfl⟩ := Except.map_eq_ok_iff.1 hopen
  exact ⟨hpersistent, rfl, _, openFile_ok hdocument, rfl, hpersistent⟩

/-- What goes on with a book that is kept at a path: an operation other than clearing whose
writing succeeds, and anything on the disk that leaves the file alone. -/
inductive Goes (path : String) : Book → Book → Prop
  | perform {b : Book} {op : PolicyOp} (hclear : op ≠ .clear) (hwrites : b.Writes op) :
      Goes path b (b.perform op)
  | elsewhere {b : Book} {disk : Disk}
      (hread : disk.read (.ofText path) = b.disk.read (.ofText path)) :
      Goes path b { b with disk := disk }

/-- A book that is in step with its file goes to one that is. -/
theorem Goes.inStep {b b' : Book} (hgoes : Goes path b b') (h : b.InStep path) :
    b'.InStep path := by
  cases hgoes with
  | perform hclear hwrites => exact inStep_perform h hclear hwrites
  | elsewhere hread => exact inStep_elsewhere h hread

end Book

/-- **A persistent policy is written through.**  A book that is switched on with a path, or opened
from a file that wants it kept, is in step with its file, and after every single operation of a
run whose writings succeed it is in step again. -/
theorem policy_written_through (path : String) :
    (∀ b : Book, b.Reachable → b.registry.storage = some path →
      (Book.save { b with registry := { b.registry with persistent := true } }).1 = .ok () →
      (b.setPersistent true).InStep path) ∧
    (∀ b opened : Book, b.openFile path = .ok opened → opened.registry.persistent = true →
      opened.InStep path) ∧
    ∀ b b' : Book, b.InStep path → Relation.ReflTransGen (Book.Goes path) b b' →
      b'.InStep path := by
  refine ⟨?_, ?_, ?_⟩
  · intro b hb hstorage hsave
    exact Book.inStep_setPersistent hb.isFolded hstorage hsave
  · intro b opened hopen hpersistent
    exact Book.inStep_openFile hopen hpersistent
  · intro b b' h hrun
    induction hrun with
    | refl => exact h
    | tail _ hgoes ih => exact hgoes.inStep ih

/-- A book is switched on, a rule is set, and a socket is asked about twice; the second time its
host has a capital, nothing is new, and nothing is written.  What is opened then is in step too. -/
theorem policy_written_through_askedTwice :
    let switchedOn : Book := (Book.setStorage {} (some "policy.json")).setPersistent true
    let ruled := switchedOn.perform (.setSocket (some "db") none .closed)
    let noted := ruled.perform (.resolveSocket "cache" 6379)
    let asked := noted.perform (.resolveSocket "Cache" 6379)
    (noted.changed? (.resolveSocket "Cache" 6379)).isNone = true ∧ asked.InStep "policy.json" ∧
      ∃ opened, asked.openFile "policy.json" = .ok opened ∧ opened.InStep "policy.json" := by
  intro switchedOn ruled noted asked
  have hstart : switchedOn.InStep "policy.json" :=
    (policy_written_through "policy.json").1 _ ((Book.Reachable.new {}).setStorage _) rfl (by rfl)
  have hruled : switchedOn.Writes (.setSocket (some "db") none .closed) := by
    intro c hc
    cases hc
    rfl
  have hnoted : ruled.Writes (.resolveSocket "cache" 6379) := by
    intro c hc
    cases hc
    rfl
  have hasked : noted.Writes (.resolveSocket "Cache" 6379) := by
    intro c hc
    cases hc
  have hrun : Relation.ReflTransGen (Book.Goes "policy.json") switchedOn asked :=
    ((Relation.ReflTransGen.single (.perform (by decide) hruled)).tail
      (.perform (by decide) hnoted)).tail (.perform (by decide) hasked)
  have hinStep : asked.InStep "policy.json" :=
    (policy_written_through "policy.json").2.2 _ _ hstart hrun
  obtain ⟨opened, hopen, -, hpersistent⟩ := hinStep.file
  exact ⟨rfl, hinStep, opened, hopen,
    (policy_written_through "policy.json").2.1 _ _ hopen hpersistent⟩

end Wiretap
