import Wiretap.Proofs.Policy.Keeping
/-!
# Merging a document into a policy

A document that is merged writes the rules of its records over those of the registry, one after
another.  So of each pattern the last record **rules** (`Document.socketRule?`), and a pattern
without a record keeps the rule it had.  Two things follow from the way in which that is done.

* Merging does not write the file of a book that is kept.  The book is in step with its file after
  that exactly if the document says nothing new (`merging_is_not_kept`).
* A record that is marked as discovered displaces a rule that was set like any other record.  Its
  pattern is **hidden** then (`Document.hidesSocket`), and decisions are those of the document
  without the discovered records, with the hidden patterns passed over
  (`merging_passes_over_hidden`).
-/

namespace Wiretap

namespace Document

/-- What a document says of a socket pattern: the rule of the last record that has it. -/
def socketRule? (d : Document) (p : SocketPattern) : Option Rule := d.socketRules.reverse.lookup p

/-- What a document says of a data source pattern. -/
def dataSourceRule? (d : Document) (p : DataSourcePattern) : Option Rule :=
  d.dataSourceRules.reverse.lookup p

end Document

namespace Registry

variable {r r' : Registry}

/-- **What is found after a merge,** in either table: what the document says, and else what was found
before. -/
theorem get?_apply (r : Registry) (d : Document) :
    (∀ p, (r.apply d).sockets.get? p = (d.socketRule? p).or (r.sockets.get? p)) ∧
      ∀ p, (r.apply d).dataSources.get? p = (d.dataSourceRule? p).or (r.dataSources.get? p) :=
  ⟨RuleTable.sockets.get?_rules_apply r d, RuleTable.dataSources.get?_rules_apply r d⟩

/-- The registry has every rule that the document says already. -/
structure Knows (r : Registry) (d : Document) : Prop where
  sockets : ∀ p rule, d.socketRule? p = some rule → r.sockets.get? p = some rule
  dataSources : ∀ p rule, d.dataSourceRule? p = some rule → r.dataSources.get? p = some rule

/-- The second of two options is the first if they do not differ where both are. -/
theorem or_eq_right_iff {α : Type} {first second : Option α} :
    second = first.or second ↔ ∀ a, first = some a → second = some a := by
  cases first with
  | none => simp
  | some a => simp

/-- Merging changes no entry exactly if the document says nothing new. -/
theorem entries_eq_apply_iff {d : Document} : r.entries = (r.apply d).entries ↔ r.Knows d := by
  simp only [entries_eq_iff, (get?_apply r d).1, (get?_apply r d).2, or_eq_right_iff]
  exact ⟨fun ⟨hsockets, hdataSources⟩ => ⟨hsockets, hdataSources⟩,
    fun h => ⟨h.sockets, h.dataSources⟩⟩

end Registry

/-! ## Merging and the file -/

namespace Book

variable {b : Book} {path : String}

/-- A document that is read is applied to the registry. -/
theorem readFrom_ok {bytes : ByteArray} {d : Document} (h : Document.ofBytes bytes = .ok d)
    (b : Book) : b.readFrom bytes = .ok { b with registry := b.registry.apply d } := by
  rw [readFrom, Registry.readFrom, h]
  rfl

/-- Who opens the path after a merge finds what was there before it. -/
theorem openFile_merged (h : b.InStep path) (d : Document) :
    ∃ opened, openFile { b with registry := b.registry.apply d } path = .ok opened ∧
      opened.registry.entries = b.registry.entries ∧ opened.registry.persistent = true := by
  obtain ⟨opened, hopen, hentries, hpersistent⟩ := h.file
  obtain ⟨document, hdocument, rfl⟩ := Except.map_eq_ok_iff.1 hopen
  exact ⟨_, openFile_ok hdocument, hentries, hpersistent⟩

/-- **A merge leaves a book in step exactly if it says nothing new.** -/
theorem inStep_merged_iff (h : b.InStep path) (d : Document) :
    InStep { b with registry := b.registry.apply d } path ↔ b.registry.Knows d := by
  obtain ⟨opened, hopen, hentries, hpersistent⟩ := openFile_merged h d
  rw [← Registry.entries_eq_apply_iff]
  constructor
  · intro hstep
    obtain ⟨opened', hopen', hentries', -⟩ := hstep.file
    have hsame : opened = opened' := Except.ok.inj (hopen.symm.trans hopen')
    rw [← hentries, hsame]
    exact hentries'
  · intro hnothing
    have hkept : (b.registry.persistent || d.persistent) = true := by
      rw [h.persistent]
      rfl
    exact ⟨hkept, h.storage, opened, hopen, hentries.trans hnothing, hpersistent⟩

end Book

/-- **Merging is not kept.**  Let a book be in step with its file.  A document that is merged is
taken over, and the disk stays as it is: who opens the path finds the entries from before the merge.
So the book is still in step exactly if the document says nothing new; otherwise it has to be kept
once more, and if that succeeds it is in step again. -/
theorem merging_is_not_kept (b : Book) (path : String) (h : b.InStep path) {bytes : ByteArray}
    {d : Document} (hread : Document.ofBytes bytes = .ok d) :
    ∃ merged, b.readFrom bytes = .ok merged ∧
      merged.disk = b.disk ∧
      (∃ opened, merged.openFile path = .ok opened ∧
        opened.registry.entries = b.registry.entries ∧ opened.registry.persistent = true) ∧
      (merged.InStep path ↔ b.registry.Knows d) ∧
      (merged.save.1 = .ok () → merged.keep.InStep path) := by
  refine ⟨_, Book.readFrom_ok hread b, rfl, Book.openFile_merged h d,
    Book.inStep_merged_iff h d, ?_⟩
  intro hsave
  have hkept : (b.registry.persistent || d.persistent) = true := by
    rw [h.persistent]
    rfl
  exact Book.inStep_keep hkept h.storage (h.isFolded.apply d) hsave

/-- A rule that closes one socket, as a document. -/
def closing (host : String) (port : UInt16) : Document where
  sockets := [{ host := some host, port := some port, status := .closed }]

/-- An empty book that was just switched on. -/
def switchedOn : Book := (Book.setStorage {} (some "policy.json")).setPersistent true

/-- The book that was switched on is in step with its file. -/
theorem inStep_switchedOn : switchedOn.InStep "policy.json" :=
  Book.inStep_setPersistent (Registry.isFolded_empty rfl) rfl (by rfl)

/-- A rule that is new is merged into a book in step; the book is out of step until it is saved. -/
theorem merging_is_not_kept_closing :
    ∃ merged, switchedOn.readFrom (closing "db" 5432).fileText.toUTF8 = .ok merged ∧
      merged.registry.socketStatus "db" 5432 = .closed ∧
      ¬ merged.InStep "policy.json" ∧ merged.keep.InStep "policy.json" := by
  obtain ⟨merged, hmerged, -, -, hstep, hkeep⟩ :=
    merging_is_not_kept switchedOn "policy.json" inStep_switchedOn
      (Document.ofBytes_fileText (closing "db" 5432))
  have hvalue := Book.readFrom_ok (Document.ofBytes_fileText (closing "db" 5432)) switchedOn
  obtain rfl := Except.ok.inj (hmerged.symm.trans hvalue)
  have hnew : ¬ switchedOn.registry.Knows (closing "db" 5432) := by
    intro hknows
    have hrule := hknows.sockets (.exact "db" 5432) { status := .closed } (by decide)
    revert hrule
    decide
  exact ⟨_, hmerged, by decide, fun h => hnew (hstep.1 h), hkeep (by rfl)⟩

/-- It is not so that a merge leaves every book in step, not even where writing would succeed. -/
theorem merged_rule_is_lost :
    ¬ ∀ (b merged : Book) (path : String) (bytes : ByteArray), b.InStep path →
      b.readFrom bytes = .ok merged → merged.save.1 = .ok () → merged.InStep path := by
  intro hall
  have hstep := hall switchedOn _ "policy.json" _ inStep_switchedOn
    (Book.readFrom_ok (Document.ofBytes_fileText (closing "db" 5432)) _) (by rfl)
  have hknows := (Book.inStep_merged_iff inStep_switchedOn (closing "db" 5432)).1 hstep
  have hrule := hknows.sockets (.exact "db" 5432) { status := .closed } (by decide)
  revert hrule
  decide

/-! ## Merging and decisions -/

namespace Document

/-- Whether the last record of a socket pattern is marked as discovered. -/
def hidesSocket (d : Document) (p : SocketPattern) : Bool := (d.socketRule? p).any (·.discovered)

/-- Whether the last record of a data source pattern is marked as discovered. -/
def hidesDataSource (d : Document) (p : DataSourcePattern) : Bool :=
  (d.dataSourceRule? p).any (·.discovered)

end Document

namespace Registry

section Rows

variable {κ : Type u}

/-- The first of a chain where some patterns are passed over. -/
theorem findSome?_passing {f g : κ → Option Status} {hidden : κ → Bool}
    (h : ∀ p, f p = if hidden p then none else g p) (chain : List κ) :
    chain.findSome? f = (chain.filter fun p => !hidden p).findSome? g := by
  induction chain with
  | nil => rfl
  | cons p rest ih =>
    cases hp : hidden p with
    | true =>
      have hnone : f p = none := by rw [h, hp, if_pos rfl]
      rw [List.findSome?_cons, hnone, List.filter_cons_of_neg (by simp [hp])]
      exact ih
    | false =>
      have hsame : f p = g p := by
        rw [h, hp]
        rfl
      rw [List.filter_cons_of_pos (by simp [hp]), List.findSome?_cons, List.findSome?_cons, hsame,
        ih]

/-- Passing over patterns changes nothing unless the first that has a status is one of them. -/
theorem findSome?_unhidden {g : κ → Option Status} {hidden : κ → Bool} {chain : List κ}
    (h : ∀ p, chain.find? (fun p => (g p).isSome) = some p → hidden p = false) :
    (chain.filter fun p => !hidden p).findSome? g = chain.findSome? g := by
  induction chain with
  | nil => rfl
  | cons p rest ih =>
    cases hg : g p with
    | none =>
      have hrest := ih (by simpa [hg] using h)
      rw [List.findSome?_cons, hg, ← hrest]
      cases hp : hidden p with
      | true => rw [List.filter_cons_of_neg (by simp [hp])]
      | false => rw [List.filter_cons_of_pos (by simp [hp]), List.findSome?_cons, hg]
    | some status =>
      have hp : hidden p = false := h p (by simp [hg])
      rw [List.filter_cons_of_pos (by simp [hp]), List.findSome?_cons, List.findSome?_cons, hg]

variable [DecidableEq κ]

/-- Of the rows that were set, the last with a key is the last of all rows with it, if that was
set. -/
theorem lookup_filter_of_set {rows : List (κ × Rule)} {p : κ} {rule : Rule}
    (h : rows.lookup p = some rule) (hset : rule.discovered = false) :
    (rows.filter fun row => !row.2.discovered).lookup p = some rule := by
  obtain ⟨before, after, rfl, hbefore⟩ := List.lookup_eq_some_iff.1 h
  have hkept : ((before ++ (p, rule) :: after).filter fun row => !row.2.discovered) =
      (before.filter fun row => !row.2.discovered) ++
        (p, rule) :: after.filter fun row => !row.2.discovered := by
    rw [List.filter_append, List.filter_cons_of_pos (by simp [hset])]
  rw [hkept, List.lookup_eq_some_iff]
  refine ⟨_, _, rfl, ?_⟩
  intro row hrow
  exact hbefore row (List.mem_of_mem_filter hrow)

/-- Rows without a key have none of it after a selection. -/
theorem lookup_filter_of_none {rows : List (κ × Rule)} {p : κ} (h : rows.lookup p = none)
    (keep : κ × Rule → Bool) : (rows.filter keep).lookup p = none := by
  rw [List.lookup_eq_none_iff] at h ⊢
  intro row hrow
  exact h row (List.mem_of_mem_filter hrow)

/-- **What is set after rows were written.**  A pattern whose last row is discovered has no set
rule; any other has the one that the rows without the discovered ones give it. -/
theorem setIn_insertAll (t : Table κ Rule) (rows : List (κ × Rule)) (p : κ) :
    setIn (t.insertAll rows) p =
      if (rows.reverse.lookup p).any (·.discovered) then none
      else setIn (t.insertAll (rows.filter fun row => !row.2.discovered)) p := by
  simp only [setIn, Table.get?_insertAll, ← List.filter_reverse]
  cases hlast : rows.reverse.lookup p with
  | none =>
    rw [lookup_filter_of_none hlast]
    rfl
  | some rule =>
    cases hdiscovered : rule.discovered with
    | true => simp [Rule.set?, hdiscovered]
    | false =>
      rw [lookup_filter_of_set hlast hdiscovered]
      simp [hdiscovered]

end Rows

/-- **Passing over what is hidden.**  One registry is what a document made of another registry, and
`explicit` is what the document without its discovered records makes of it.  What the first has set
is what `explicit` has set, but for the hidden patterns; so it decides like `explicit` with these
passed over, and just like it unless the pattern that decides there is hidden. -/
structure PassesOver (merged explicit : Registry) (d : Document) : Prop where
  sockets : ∀ p, setIn merged.sockets p =
    if d.hidesSocket p then none else setIn explicit.sockets p
  dataSources : ∀ p, setIn merged.dataSources p =
    if d.hidesDataSource p then none else setIn explicit.dataSources p
  socketStatus : ∀ host port, merged.socketStatus host port =
    (((SocketPattern.chain host port).filter fun p => !d.hidesSocket p).findSome?
      (setIn explicit.sockets)).getD .opened
  dataSourceStatus : ∀ url user, merged.dataSourceStatus url user =
    (((DataSourcePattern.chain url user).filter fun p => !d.hidesDataSource p).findSome?
      (setIn explicit.dataSources)).getD .opened
  unhiddenSocket : ∀ host port,
    (∀ p, (SocketPattern.chain host port).find? (fun p => (setIn explicit.sockets p).isSome) =
      some p → d.hidesSocket p = false) →
    merged.socketStatus host port = explicit.socketStatus host port
  unhiddenDataSource : ∀ url user,
    (∀ p, (DataSourcePattern.chain url user).find?
      (fun p => (setIn explicit.dataSources p).isSome) = some p → d.hidesDataSource p = false) →
    merged.dataSourceStatus url user = explicit.dataSourceStatus url user

/-- What is set in a table after a merge is what the document without its discovered records sets
there, unless the last record of the pattern hides it. -/
theorem setIn_rules_apply {κ : Type} [DecidableEq κ] (t : RuleTable κ) (r : Registry) (d : Document)
    (p : κ) :
    setIn (t.rules (r.apply d)) p =
      if (t.rule? d p).any (·.discovered) then none
      else setIn (t.rules (r.apply d.withoutDiscovered)) p := by
  rw [t.rules_apply, t.rules_apply, t.records_withoutDiscovered]
  exact setIn_insertAll (t.rules r) (t.records d) p

/-- **Merging passes over what it hides.** -/
theorem passesOver_apply {r : Registry} (h : r.IsFolded) (d : Document) :
    (r.apply d).PassesOver (r.apply d.withoutDiscovered) d := by
  have hsockets : ∀ p, setIn (r.apply d).sockets p =
      if d.hidesSocket p then none else setIn (r.apply d.withoutDiscovered).sockets p :=
    setIn_rules_apply .sockets r d
  have hdataSources : ∀ p, setIn (r.apply d).dataSources p =
      if d.hidesDataSource p then none
      else setIn (r.apply d.withoutDiscovered).dataSources p :=
    setIn_rules_apply .dataSources r d
  refine ⟨hsockets, hdataSources, ?_, ?_, ?_, ?_⟩
  · intro host port
    rw [socketStatus_eq (h.apply d), findSome?_passing hsockets]
  · intro url user
    rw [dataSourceStatus_eq, findSome?_passing hdataSources]
  · intro host port hunset
    rw [socketStatus_eq (h.apply d), findSome?_passing hsockets, findSome?_unhidden hunset,
      socketStatus_eq (h.apply d.withoutDiscovered)]
  · intro url user hunset
    rw [dataSourceStatus_eq, findSome?_passing hdataSources, findSome?_unhidden hunset,
      dataSourceStatus_eq]

end Registry

/-- **Discovered records decide nothing, but they hide.**  Whatever document is merged into a book
that came about by use, or loaded into a new registry, its discovered records change decisions in
one way only: a rule that was set, by the book or by an earlier record, is gone if the last record
of its pattern is discovered. -/
theorem merging_passes_over_hidden (b : Book) (hb : b.Reachable) (d : Document) :
    (∀ bytes, Document.ofBytes bytes = .ok d → ∃ merged, b.readFrom bytes = .ok merged ∧
      merged.registry.PassesOver (b.registry.apply d.withoutDiscovered) d) ∧
    ∀ text, Document.ofText text = .ok d → ∃ loaded, Registry.fromJson text = .ok loaded ∧
      loaded.PassesOver (.ofDocument d.withoutDiscovered) d := by
  constructor
  · intro bytes hread
    exact ⟨_, Book.readFrom_ok hread b, Registry.passesOver_apply hb.isFolded d⟩
  · intro text hread
    have hempty : Registry.IsFolded {} := Registry.isFolded_empty rfl
    refine ⟨.ofDocument d, ?_, Registry.passesOver_apply hempty d⟩
    rw [Registry.fromJson, hread]
    rfl

/-- A document that closes a data source and then notes it, and that closes a socket. -/
def closedThenNoted : Document where
  sockets := [{ host := some "db", port := some 5432, status := .closed }]
  dataSources := [
    { url := some "jdbc:shop", status := .closed },
    { url := some "jdbc:shop", status := .opened, discovered := true }]

/-- In a book that it is merged into, the data source is open again, and in a registry that is
loaded from it the socket is still closed. -/
theorem merging_passes_over_hidden_closedThenNoted :
    (∃ merged, Book.readFrom {} closedThenNoted.fileText.toUTF8 = .ok merged ∧
      merged.registry.dataSourceStatus "jdbc:shop" none = .opened) ∧
    (Registry.ofDocument closedThenNoted.withoutDiscovered).dataSourceStatus "jdbc:shop" none =
      .closed ∧
    ∃ loaded, Registry.fromJson closedThenNoted.compact = .ok loaded ∧
      loaded.socketStatus "DB" 5432 = .closed := by
  obtain ⟨hmerge, hload⟩ := merging_passes_over_hidden {} (.new {}) closedThenNoted
  obtain ⟨merged, hmerged, hpasses⟩ := hmerge _ closedThenNoted.ofBytes_fileText
  obtain ⟨loaded, hloaded, hpasses'⟩ := hload _ closedThenNoted.ofText_compact
  refine ⟨⟨merged, hmerged, ?_⟩, by decide, loaded, hloaded, ?_⟩
  · rw [hpasses.dataSourceStatus]
    decide
  · rw [hpasses'.unhiddenSocket "DB" 5432 (by decide)]
    decide

/-- It is not so that discovered records never change a decision: one with the host in capitals
opens a socket that was closed. -/
theorem noted_socket_displaces_rule :
    ¬ ∀ (b merged : Book) (bytes : ByteArray) (d : Document), b.Reachable →
      Document.ofBytes bytes = .ok d → b.readFrom bytes = .ok merged → ∀ host port,
      merged.registry.socketStatus host port =
        (b.registry.apply d.withoutDiscovered).socketStatus host port := by
  intro hall
  have hsame := hall (Book.perform {} (.setSocket (some "db") (some 5432) .closed)) _ _
    { sockets := [⟨some "DB", some 5432, .opened, true⟩] } ((Book.Reachable.new {}).perform _)
    (Document.ofBytes_fileText _) (Book.readFrom_ok (Document.ofBytes_fileText _) _) "db" 5432
  revert hsame
  decide

end Wiretap
