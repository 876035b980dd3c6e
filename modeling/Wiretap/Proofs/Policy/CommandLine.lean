import Wiretap.Cli.Run
import Wiretap.Proofs.Policy.Keeping
/-!
# The command line refines one registry in memory

Every command opens the policy file anew, works on what it reads, and leaves at most the file
behind.  All the same a run of commands cannot be told from one registry that stays in memory and
is given the same operations, as long as the writings succeed.  The relation that is kept is
`Disk.Holds`: the file decodes to a registry that agrees with the one in memory.

* `Command.effect` is what a command changes in the rules, `Command.stored?` the book that it
  writes down, if it writes any;
* `Registry.Agrees.effect` — agreeing registries still agree after a command;
* `holds_run` — one command line keeps the relation, and prints what the registry gives;
* `command_line_refines_registry` — a whole run does.

A question notes what was asked about in memory at any rate, and in the file only where the
registry is persistent.  So the registry in memory is asked without being changed where it is not
(`Command.remember`).
-/

namespace Wiretap

namespace Table

variable {κ : Type u} {ν : Type v} [DecidableEq κ] {t t' : Table κ ν}

/-- Tables that are looked up alike are looked up alike after the same rule was written. -/
theorem get?_insert_alike (h : ∀ p, t.get? p = t'.get? p) (k : κ) (v : ν) :
    ∀ p, (t.insert k v).get? p = (t'.insert k v).get? p := by
  intro p
  rw [get?_insert, get?_insert, funext h]

/-- The same holds where the rule is written only for a key that has none. -/
theorem get?_insertNew_alike (h : ∀ p, t.get? p = t'.get? p) (k : κ) (v : ν) :
    ∀ p, (if t.contains k then t else t.insert k v).get? p =
      (if t'.contains k then t' else t'.insert k v).get? p := by
  intro p
  have hknown : t.contains k = t'.contains k := by
    rw [contains_eq_isSome, contains_eq_isSome, h k]
  rw [hknown]
  split
  · exact h p
  · exact get?_insert_alike h k v p

end Table

namespace Registry

variable {r r' : Registry}

/-- A socket is noted under its exact pattern, unless there is a rule under it. -/
theorem sockets_noteSocket (r : Registry) (host : String) (port : UInt16) :
    (r.noteSocket host port).sockets =
      if r.sockets.contains (.exact host port) then r.sockets
      else r.sockets.insert (.exact host port) .noted := by
  simp only [noteSocket]
  split <;> rfl

/-- Noting a socket touches nothing but the socket rules. -/
theorem noteSocket_frame (r : Registry) (host : String) (port : UInt16) :
    r.noteSocket host port = { r with sockets := (r.noteSocket host port).sockets } := by
  simp only [noteSocket]
  split <;> rfl

/-- A data source is noted under its exact pattern, unless there is a rule under it. -/
theorem dataSources_noteDataSource (r : Registry) (url : String) (user : Option String) :
    (r.noteDataSource url user).dataSources =
      if r.dataSources.contains ⟨some url, user⟩ then r.dataSources
      else r.dataSources.insert ⟨some url, user⟩ .noted := by
  simp only [noteDataSource]
  split <;> rfl

/-- Noting a data source touches nothing but the data source rules. -/
theorem noteDataSource_frame (r : Registry) (url : String) (user : Option String) :
    r.noteDataSource url user =
      { r with dataSources := (r.noteDataSource url user).dataSources } := by
  simp only [noteDataSource]
  split <;> rfl

/-- Folded registries with the same rules agree. -/
theorem agrees_of_rules (hfolded : r.IsFolded)
    (hsockets : ∀ p, r.sockets.get? p = r'.sockets.get? p)
    (hdataSources : ∀ p, r.dataSources.get? p = r'.dataSources.get? p)
    (hpersistent : r.persistent = r'.persistent) : r.Agrees r' :=
  agrees_of_entries hfolded (entries_eq_iff.2 ⟨hsockets, hdataSources⟩) hpersistent

/-- Registries that agree with one in between agree. -/
theorem Agrees.trans {r'' : Registry} (h : r.Agrees r') (h' : r'.Agrees r'') : r.Agrees r'' where
  entries := h.entries.trans h'.entries
  persistent := h.persistent.trans h'.persistent
  socketStatus host port := (h.socketStatus host port).trans (h'.socketStatus host port)
  dataSourceStatus url user := (h.dataSourceStatus url user).trans (h'.dataSourceStatus url user)

/-- Agreeing registries have the same document. -/
theorem Agrees.toDocument (h : r.Agrees r') : r.toDocument = r'.toDocument := by
  obtain ⟨hsockets, hdataSources⟩ := rows_eq_of_entries h.entries
  rw [Registry.toDocument, Registry.toDocument, hsockets, hdataSources, h.persistent]

end Registry

namespace Book

/-- Setting a socket in a book sets it in the registry. -/
theorem registry_setSocket (b : Book) (pattern : SocketPattern) (status : Status) :
    (b.setSocket pattern status).registry = b.registry.setSocket pattern status :=
  registry_keep _

/-- Setting a data source in a book sets it in the registry. -/
theorem registry_setDataSource (b : Book) (pattern : DataSourcePattern) (status : Status) :
    (b.setDataSource pattern status).registry = b.registry.setDataSource pattern status :=
  registry_keep _

/-- Making a book persistent makes its registry so. -/
theorem registry_setPersistent (b : Book) (on : Bool) :
    (b.setPersistent on).registry = { b.registry with persistent := on } :=
  registry_keep _

/-- As long as it is not kept, a changed book has the disk that it had. -/
theorem disk_changed? {b c : Book} {op : PolicyOp} (h : b.changed? op = some c) :
    c.disk = b.disk := by
  cases op with
  | setSocket | setDataSource => cases h; rfl
  | resolveSocket | resolveDataSource =>
    simp only [changed?] at h
    split at h
    · cases h
    · cases h
      rfl
  | clear => cases h

/-- An operation leaves the disk alone, unless the book is persistent and something changed. -/
theorem disk_perform (b : Book) (op : PolicyOp) (hclear : op ≠ .clear) :
    (b.perform op).disk =
      ((if b.registry.persistent then b.changed? op else none).map fun s => s.save.2.disk).getD
        b.disk := by
  rw [perform_eq hclear]
  cases hchanged : b.changed? op with
  | none => split <;> rfl
  | some s =>
    have hpersistent := (settings_changed? hchanged).1
    show s.keep.disk = _
    rw [keep, hpersistent]
    split
    · rfl
    · exact disk_changed? hchanged

end Book

namespace Cli

namespace Command

/-! ## What a command does to rules -/

/-- What a command changes in the rules of its policy file. -/
def effect (r : Registry) : Command → Registry
  | list _ => r
  | setSocket host port status => r.setSocket (.of host port) status
  | setDataSource url user status => r.setDataSource ⟨url, user⟩ status
  | resolveSocket address =>
    if r.persistent then r.noteSocket address.host address.port else r
  | resolveDataSource url user => if r.persistent then r.noteDataSource url user else r
  | setPersistent on => { r with persistent := on }
  | clear => r.clear

/-- What a registry in memory gives for a command to print. -/
def prints (b : Book) : Command → String
  | list true => b.registry.toDocument.pretty ++ "\n"
  | list false => listing b.registry
  | resolveSocket address => (b.resolveSocket address.host address.port).1.text ++ "\n"
  | resolveDataSource url user => (b.resolveDataSource url user).1.text ++ "\n"
  | setSocket .. | setDataSource .. | setPersistent _ | clear => ""

/-- A registry in memory after it was given the operation of a command.  A question leaves it
alone where it is not persistent. -/
def remember (b : Book) : Command → Book
  | list _ => b
  | setSocket host port status => b.setSocket (.of host port) status
  | setDataSource url user status => b.setDataSource ⟨url, user⟩ status
  | resolveSocket address =>
    if b.registry.persistent then (b.resolveSocket address.host address.port).2 else b
  | resolveDataSource url user =>
    if b.registry.persistent then (b.resolveDataSource url user).2 else b
  | setPersistent on => b.setPersistent on
  | clear => b.clear

/-- The book that a command writes down last, if it writes at all.  A question that notes
something new writes where the book is persistent. -/
def stored? (b : Book) : Command → Option Book
  | list _ => none
  | setSocket host port status => some (b.setSocket (.of host port) status)
  | setDataSource url user status => some (b.setDataSource ⟨url, user⟩ status)
  | resolveSocket address =>
    if b.registry.persistent then b.changed? (.resolveSocket address.host address.port) else none
  | resolveDataSource url user =>
    if b.registry.persistent then b.changed? (.resolveDataSource url user) else none
  | setPersistent on => some (b.setPersistent on)
  | clear => some b.clear

/-- The writing of a command, if there is one, succeeds. -/
def Writes (c : Command) (b : Book) : Prop := ∀ s ∈ c.stored? b, s.save.1 = .ok ()

/-- The registry in memory changes as the rules of the policy file do. -/
theorem registry_remember (c : Command) (b : Book) :
    (c.remember b).registry = c.effect b.registry := by
  cases c with
  | list json => rfl
  | setSocket host port status => exact b.registry_setSocket _ _
  | setDataSource url user status => exact b.registry_setDataSource _ _
  | resolveSocket address =>
    simp only [remember, effect]
    split
    · exact b.registry_noteSocket _ _
    · rfl
  | resolveDataSource url user =>
    simp only [remember, effect]
    split
    · exact b.registry_noteDataSource _ _
    · rfl
  | setPersistent on => exact b.registry_setPersistent on
  | clear => rfl

/-- **What is written down is the book after the command,** and a command that writes nothing down
changes nothing. -/
theorem effect_eq (c : Command) (b : Book) :
    c.effect b.registry = ((c.stored? b).map Book.registry).getD b.registry := by
  cases c with
  | list json => rfl
  | setSocket host port status => exact (b.registry_setSocket _ _).symm
  | setDataSource url user status => exact (b.registry_setDataSource _ _).symm
  | resolveSocket address =>
    simp only [effect, stored?, Book.changed?, Registry.noteSocket]
    split
    · split <;> rfl
    · rfl
  | resolveDataSource url user =>
    simp only [effect, stored?, Book.changed?, Registry.noteDataSource]
    split
    · split <;> rfl
    · rfl
  | setPersistent on => exact (b.registry_setPersistent on).symm
  | clear => rfl

/-- No command changes where a registry is kept. -/
theorem storage_effect (c : Command) (r : Registry) : (c.effect r).storage = r.storage := by
  cases c with
  | resolveSocket address =>
    simp only [effect]
    split
    · rw [Registry.noteSocket_frame]
    · rfl
  | resolveDataSource url user =>
    simp only [effect]
    split
    · rw [Registry.noteDataSource_frame]
    · rfl
  | list | setSocket | setDataSource | setPersistent | clear => rfl

end Command

end Cli

namespace Registry

variable {r r' : Registry}

/-- Commands keep a registry folded. -/
theorem IsFolded.effect (h : r.IsFolded) (c : Cli.Command) : (c.effect r).IsFolded := by
  cases c with
  | list json => exact h
  | setSocket host port status => exact h.insert rfl
  | setDataSource url user status => exact h
  | resolveSocket address =>
    simp only [Cli.Command.effect, noteSocket]
    split
    · split
      · exact h
      · exact h.insert rfl
    · exact h
  | resolveDataSource url user =>
    simp only [Cli.Command.effect]
    split
    · rw [noteDataSource_frame]
      exact h
    · exact h
  | setPersistent on => exact h
  | clear => exact isFolded_empty rfl

/-- **Registries that agree still agree after a command.** -/
theorem Agrees.effect (h : r.Agrees r') (hfolded : r.IsFolded) (c : Cli.Command) :
    (c.effect r).Agrees (c.effect r') := by
  obtain ⟨hsockets, hdataSources⟩ := entries_eq_iff.1 h.entries
  have hpersistent := h.persistent
  have hafter := hfolded.effect c
  cases c with
  | list json => exact h
  | setSocket host port status =>
    exact agrees_of_rules hafter (Table.get?_insert_alike hsockets _ _) hdataSources hpersistent
  | setDataSource url user status =>
    exact agrees_of_rules hafter hsockets (Table.get?_insert_alike hdataSources _ _) hpersistent
  | resolveSocket address =>
    simp only [Cli.Command.effect, ← hpersistent] at hafter ⊢
    by_cases hon : r.persistent = true
    · have hnoted := Table.get?_insertNew_alike hsockets
        (.exact address.host address.port) Rule.noted
      rw [← sockets_noteSocket, ← sockets_noteSocket] at hnoted
      rw [if_pos hon] at hafter ⊢
      rw [if_pos hon]
      refine agrees_of_rules hafter hnoted ?_ ?_
      · rw [noteSocket_frame r, noteSocket_frame r']
        exact hdataSources
      · rw [noteSocket_frame r, noteSocket_frame r']
        exact hpersistent
    · rw [if_neg hon, if_neg hon]
      exact h
  | resolveDataSource url user =>
    simp only [Cli.Command.effect, ← hpersistent] at hafter ⊢
    by_cases hon : r.persistent = true
    · have hnoted := Table.get?_insertNew_alike hdataSources ⟨some url, user⟩ Rule.noted
      rw [← dataSources_noteDataSource, ← dataSources_noteDataSource] at hnoted
      rw [if_pos hon] at hafter ⊢
      rw [if_pos hon]
      refine agrees_of_rules hafter ?_ hnoted ?_
      · rw [noteDataSource_frame r, noteDataSource_frame r']
        exact hsockets
      · rw [noteDataSource_frame r, noteDataSource_frame r']
        exact hpersistent
    · rw [if_neg hon, if_neg hon]
      exact h
  | setPersistent on => exact agrees_of_rules hafter hsockets hdataSources rfl
  | clear => exact agrees_of_rules hafter (fun _ => rfl) (fun _ => rfl) rfl

end Registry

/-- **The file at a path holds a registry:** it decodes to one with the same entries and marks,
which is to be kept like it and gives every status that it gives.  A file that is not there decodes
to the registry without rules. -/
def Disk.Holds (disk : Disk) (path : String) (r : Registry) : Prop :=
  ∃ document, disk.readDocument (.ofText path) = .ok document ∧
    (Registry.ofDocument document).Agrees r

namespace Cli

namespace Command

/-! ## One command -/

/-- Agreeing books print the same. -/
theorem prints_of_agrees {b b' : Book} (h : b.registry.Agrees b'.registry) (c : Command) :
    c.prints b = c.prints b' := by
  cases c with
  | list json =>
    cases json with
    | true => rw [prints, prints, h.toDocument]
    | false => rw [prints, prints, listing, listing, h.persistent, h.entries]
  | resolveSocket address =>
    show (b.registry.socketStatus _ _).text ++ _ = (b'.registry.socketStatus _ _).text ++ _
    rw [h.socketStatus]
  | resolveDataSource url user =>
    show (b.registry.dataSourceStatus _ _).text ++ _ = (b'.registry.dataSourceStatus _ _).text ++ _
    rw [h.dataSourceStatus]
  | setSocket | setDataSource | setPersistent | clear => rfl

/-- A book that could be saved answers nothing. -/
theorem saved_of_ok {b : Book} (h : b.save.1 = .ok ()) : saved b = (.ok "", b.save.2) := by
  have hsaved : saved b = (b.save.1.map fun _ => "", b.save.2) := rfl
  rw [hsaved, h]
  rfl

/-- **What a command prints and what becomes of the disk**, where its writing succeeds. -/
theorem run_of_writes {c : Command} {b : Book} (h : c.Writes b) :
    (c.run b).1 = .ok (c.prints b) ∧
      (c.run b).2.disk = ((c.stored? b).map fun s => s.save.2.disk).getD b.disk := by
  cases c with
  | list json =>
    cases json with
    | true => exact ⟨rfl, rfl⟩
    | false => exact ⟨rfl, rfl⟩
  | setSocket host port status =>
    rw [run, saved_of_ok (h _ rfl)]
    exact ⟨rfl, rfl⟩
  | setDataSource url user status =>
    rw [run, saved_of_ok (h _ rfl)]
    exact ⟨rfl, rfl⟩
  | resolveSocket address =>
    refine ⟨rfl, ?_⟩
    exact b.disk_perform (.resolveSocket address.host address.port) (by simp)
  | resolveDataSource url user =>
    refine ⟨rfl, ?_⟩
    exact b.disk_perform (.resolveDataSource url user) (by simp)
  | setPersistent on =>
    rw [run, saved_of_ok (h _ rfl)]
    exact ⟨rfl, rfl⟩
  | clear =>
    rw [run, saved_of_ok (h _ rfl)]
    exact ⟨rfl, rfl⟩

/-- **One command.**  It prints what a registry in memory gives that agrees with its book, and the
file holds that registry after it.  Where the command writes, the file holds what was written;
where it does not, nothing was changed. -/
theorem holds_of_writes {c : Command} {b m : Book} {path : String}
    (hstorage : b.registry.storage = some path) (hholds : b.disk.Holds path b.registry)
    (hagrees : b.registry.Agrees m.registry) (hfolded : b.registry.IsFolded) (h : c.Writes b) :
    (c.run b).1 = .ok (c.prints m) ∧ (c.run b).2.disk.Holds path (c.remember m).registry := by
  obtain ⟨hprints, hdisk⟩ := run_of_writes h
  have hafter := hagrees.effect hfolded c
  rw [hprints, prints_of_agrees hagrees, registry_remember, hdisk]
  refine ⟨rfl, ?_⟩
  have heffect := c.effect_eq b
  cases hstored : c.stored? b with
  | none =>
    obtain ⟨document, hread, hdocument⟩ := hholds
    rw [hstored] at heffect
    rw [heffect] at hafter
    exact ⟨document, hread, hdocument.trans hafter⟩
  | some s =>
    rw [hstored] at heffect
    have hregistry : s.registry = c.effect b.registry := heffect.symm
    have hsave : s.save = s.saveTo path := by
      rw [Book.save, hregistry, storage_effect, hstorage]
    have hsaved := h s hstored
    rw [hsave] at hsaved
    show s.save.2.disk.Holds path _
    rw [hsave]
    refine ⟨_, Book.readDocument_saveTo hsaved, ?_⟩
    rw [hregistry]
    exact (Registry.agrees_ofDocument (hfolded.effect c)).trans hafter

end Command

/-- A command line that is understood runs its command. -/
theorem run_of_read {fallback : Option String} {line : List String} {request : Request}
    (h : Request.read fallback line = .ok request) (disk : Disk) :
    run fallback line disk = request.run disk := by
  rw [run, h]

/-- What a command on a file that decodes shows and leaves is what its command gives on the book
that was opened. -/
theorem run_of_readDocument {disk : Disk} {path : String} {document : Document}
    (h : disk.readDocument (.ofText path) = .ok document) (c : Command) :
    ∃ b : Book, ({ disk } : Book).openFile path = .ok b ∧ b.disk = disk ∧
      b.registry = { Registry.ofDocument document with storage := some path } ∧
      ∀ output, (c.run b).1 = .ok output →
        (⟨path, c⟩ : Request).run disk = ({ exit := 0, output }, (c.run b).2.disk) := by
  have hopen := Book.openFile_ok (b := { disk }) h
  refine ⟨_, hopen, rfl, rfl, ?_⟩
  intro output houtput
  simp only [Request.run, hopen]
  split
  · rename_i output' book hrun
    rw [hrun] at houtput ⊢
    cases houtput
    rfl
  · rename_i e book hrun
    rw [hrun] at houtput
    cases houtput

/-! ## Commands one after another -/

/-- What command lines show that are run one after another, each with the disk after it. -/
def trail (fallback : Option String) (disk : Disk) : List (List String) → List (Outcome × Disk)
  | [] => []
  | line :: rest => run fallback line disk :: trail fallback (run fallback line disk).2 rest

/-- What a registry in memory gives that is given commands one after another, each with the
registry after it. -/
def replies (m : Book) : List Command → List (String × Book)
  | [] => []
  | c :: rest => (c.prints m, c.remember m) :: replies (c.remember m) rest

/-- The writing of a command, if the policy file can be opened and there is one, succeeds. -/
def Request.Writes (r : Request) (disk : Disk) : Prop :=
  ∀ b ∈ (({ disk } : Book).openFile r.path).toOption, r.command.Writes b

/-- The writings of commands that are run one after another on the file at a path succeed. -/
def AllWritten (path : String) (disk : Disk) : List Command → Prop
  | [] => True
  | c :: rest =>
    (⟨path, c⟩ : Request).Writes disk ∧ AllWritten path ((⟨path, c⟩ : Request).run disk).2 rest

/-- **One command line** on a file that holds what a registry in memory holds. -/
theorem holds_run {disk : Disk} {path : String} {m : Book} (hholds : disk.Holds path m.registry)
    {c : Command} (hwrites : (⟨path, c⟩ : Request).Writes disk) :
    ((⟨path, c⟩ : Request).run disk).1 = { exit := 0, output := c.prints m } ∧
      ((⟨path, c⟩ : Request).run disk).2.Holds path (c.remember m).registry := by
  obtain ⟨document, hread, hagrees⟩ := hholds
  obtain ⟨b, hopen, hdisk, hregistry, hrun⟩ := run_of_readDocument hread c
  have hown : (Registry.ofDocument document).Agrees b.registry := by
    rw [hregistry]
    exact ⟨rfl, rfl, fun _ _ => rfl, fun _ _ => rfl⟩
  have hmemory : b.registry.Agrees m.registry := by
    rw [hregistry]
    exact ⟨hagrees.entries, hagrees.persistent, hagrees.socketStatus, hagrees.dataSourceStatus⟩
  have hfolded : b.registry.IsFolded := by
    rw [hregistry]
    exact Registry.isFolded_ofDocument document
  have hstorage : b.registry.storage = some path := by rw [hregistry]
  have hfile : b.disk.Holds path b.registry := by
    rw [hdisk]
    exact ⟨document, hread, hown⟩
  obtain ⟨hprints, hafter⟩ :=
    Command.holds_of_writes hstorage hfile hmemory hfolded (hwrites b (by rw [hopen]; rfl))
  rw [hrun _ hprints]
  exact ⟨rfl, hafter⟩

/-- **A run of command lines,** by induction on the lines: each of them keeps the relation. -/
theorem forall_trail {fallback : Option String} {path : String} {disk : Disk} {m : Book}
    (hholds : disk.Holds path m.registry) {lines : List (List String)} {commands : List Command}
    (hlines : lines.map (Request.read fallback) = commands.map fun c => .ok ⟨path, c⟩)
    (hwritten : AllWritten path disk commands) :
    List.Forall₂ (fun shown reply => shown.1 = { exit := 0, output := reply.1 } ∧
      shown.2.Holds path reply.2.registry) (trail fallback disk lines) (replies m commands) := by
  induction commands generalizing disk m lines with
  | nil =>
    rw [List.map_nil, List.map_eq_nil_iff] at hlines
    subst hlines
    exact .nil
  | cons c rest ih =>
    obtain ⟨line, later, rfl, hline, hlater⟩ := List.map_eq_cons_iff.1 hlines
    obtain ⟨hwrites, hrest⟩ := hwritten
    have hstep := holds_run hholds hwrites
    rw [trail, replies, run_of_read hline]
    exact .cons hstep (ih hstep.2 hlater hrest)

end Cli

/-- **The command line refines the registry.**

* On a file that decodes, or that is not there, a run of command lines that are understood, with
  writings that succeed, prints what one registry in memory gives that is started from the file
  and given the same operations, and after each of the lines the file holds that registry.
* A question leaves the disk as it was where the file does not want to be kept.
* A file that does not decode makes every command fail, and stays as it was. -/
theorem command_line_refines_registry (fallback : Option String) (path : String) :
    (∀ (disk : Disk) (document : Document), disk.readDocument (.ofText path) = .ok document →
      ∀ (lines : List (List String)) (commands : List Cli.Command),
        lines.map (Cli.Request.read fallback) = commands.map (fun c => .ok ⟨path, c⟩) →
        Cli.AllWritten path disk commands →
        List.Forall₂
          (fun shown reply => shown.1 = { exit := 0, output := reply.1 } ∧
            shown.2.Holds path reply.2.registry)
          (Cli.trail fallback disk lines)
          (Cli.replies { registry := .ofDocument document } commands)) ∧
    (∀ (disk : Disk) (document : Document), disk.readDocument (.ofText path) = .ok document →
      document.persistent = false → ∀ (line : List String) (c : Cli.Command),
        Cli.Request.read fallback line = .ok ⟨path, c⟩ → c.asks = true →
        (Cli.run fallback line disk).2 = disk) ∧
    ∀ (disk : Disk) (e : StorageError), disk.readDocument (.ofText path) = .error e →
      ∀ (line : List String) (c : Cli.Command),
        Cli.Request.read fallback line = .ok ⟨path, c⟩ →
        Cli.run fallback line disk = ({ exit := 1, aside := e.message ++ "\n" }, disk) := by
  refine ⟨?_, ?_, ?_⟩
  · intro disk document hread lines commands hlines hwritten
    have hholds : disk.Holds path (Registry.ofDocument document) :=
      ⟨document, hread, ⟨rfl, rfl, fun _ _ => rfl, fun _ _ => rfl⟩⟩
    exact Cli.forall_trail (m := { registry := .ofDocument document }) hholds hlines hwritten
  · intro disk document hread hoff line c hline hasks
    obtain ⟨b, -, hdisk, hregistry, hrun⟩ := Cli.run_of_readDocument hread c
    have hquiet : c.stored? b = none := by
      have hoff' : b.registry.persistent = false := by
        rw [hregistry]
        exact (Registry.persistent_ofDocument document).trans hoff
      cases c with
      | list json => rfl
      | resolveSocket address => simp only [Cli.Command.stored?, hoff', if_neg Bool.false_ne_true]
      | resolveDataSource url user =>
        simp only [Cli.Command.stored?, hoff', if_neg Bool.false_ne_true]
      | setSocket | setDataSource | setPersistent | clear => cases hasks
    have hwrites : c.Writes b := by
      intro s hs
      rw [hquiet] at hs
      cases hs
    obtain ⟨hprints, hafter⟩ := Cli.Command.run_of_writes hwrites
    rw [hquiet] at hafter
    rw [Cli.run_of_read hline, hrun _ hprints]
    exact hafter.trans hdisk
  · intro disk e hread line c hline
    have hopen : ({ disk } : Book).openFile path = .error e := by
      rw [Book.openFile, hread]
      rfl
    rw [Cli.run_of_read hline, Cli.Request.run, hopen]

/-- A socket is asked about while there is no file, keeping is switched on, and another socket is
asked about. -/
def askAndKeep : List Cli.Command :=
  [.resolveSocket ⟨"web", 80⟩, .setPersistent true, .resolveSocket ⟨"Cache", 6379⟩]

/-- The same as it is typed. -/
def askAndKeepTyped : List (List String) :=
  [["resolve-socket", "web:80"], ["persistent", "true"], ["resolve-socket", "Cache:6379"]]

/-- The book in which keeping was switched on, as it was written to the file. -/
def kept : Book :=
  (Book.saveTo (.setPersistent { registry := { storage := some "policy.json" } } true)
    "policy.json").2

/-- The policy file that is kept is empty but for its mark. -/
theorem readDocument_kept :
    kept.disk.readDocument (.ofText "policy.json") = .ok { persistent := true } := by
  have hdocument : Registry.toDocument { storage := some "policy.json", persistent := true } =
      { persistent := true } := by
    simp [Registry.toDocument, Registry.socketRows, Registry.dataSourceRows, Table.sorted,
      Table.empty]
  rw [← hdocument]
  exact Book.readDocument_saveTo (by rfl)

/-- The file that comes of it has the socket that was asked about last, and not the first one. -/
theorem command_line_refines_registry_askAndKeep :
    ∃ (shown : Cli.Outcome × Disk) (r : Registry),
      (Cli.trail (some "policy.json") {} askAndKeepTyped)[2]? = some shown ∧
      shown.1 = { exit := 0, output := "OPEN\n" } ∧ shown.2.Holds "policy.json" r ∧
      r.sockets.contains (.exact "cache" 6379) = true ∧
      r.sockets.contains (.exact "web" 80) = false ∧
      (Cli.run (some "policy.json") ["resolve-socket", "web:80"] {}).2 = {} := by
  obtain ⟨hrun, hquiet, -⟩ := command_line_refines_registry (some "policy.json") "policy.json"
  have hasked : (⟨"policy.json", .resolveSocket ⟨"web", 80⟩⟩ : Cli.Request).Writes {} := by
    rintro b ⟨⟩ s ⟨⟩
  have hswitched : (⟨"policy.json", .setPersistent true⟩ : Cli.Request).Writes {} := by
    rintro b ⟨⟩ s ⟨⟩
    rfl
  have hnoted : (⟨"policy.json", .resolveSocket ⟨"Cache", 6379⟩⟩ : Cli.Request).Writes
      kept.disk := by
    have hopen := Book.openFile_ok (b := { disk := kept.disk }) readDocument_kept
    intro b hb
    replace hb : b ∈ (Book.openFile { disk := kept.disk } "policy.json").toOption := hb
    rw [hopen] at hb
    cases hb
    rintro s ⟨⟩
    rfl
  have hwritten : Cli.AllWritten "policy.json" {} askAndKeep :=
    ⟨hasked, hswitched, hnoted, trivial⟩
  have hsame := hrun {} {} rfl askAndKeepTyped askAndKeep rfl hwritten
  obtain ⟨-, hlater⟩ := List.forall₂_cons.1 hsame
  obtain ⟨-, hlast⟩ := List.forall₂_cons.1 hlater
  obtain ⟨⟨hshown, hholds⟩, -⟩ := List.forall₂_cons.1 hlast
  refine ⟨_, _, rfl, hshown, hholds, rfl, rfl, ?_⟩
  exact hquiet {} {} rfl rfl ["resolve-socket", "web:80"] (.resolveSocket ⟨"web", 80⟩) rfl rfl

end Wiretap
