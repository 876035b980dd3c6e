import Wiretap.Proofs.Listing
import Wiretap.Proofs.Policy.Codec
import Wiretap.Proofs.Policy.History
/-!
# A policy survives being written down

Every document is read back from the text that it is written as.  For a registry there is one more
step, since its document lists the rules in the order of their patterns and is folded again when it
is read: the hosts that a registry keeps must be folded already.  They are, in whatever way the
registry came about (`Book.Reachable.isFolded`), because every operation that writes a socket rule
makes its pattern by `SocketPattern.of`.

* `Registry.agrees_ofDocument` — the registry that the document of a folded registry describes has
  the same entries and gives the same statuses;
* `policy_survives_writing` — documents and registries survive being written down.
-/

namespace Wiretap

/-! ## Folded patterns -/

/-- The host of the pattern is in lower case, as `SocketPattern.of` puts it. -/
def SocketPattern.IsFolded (p : SocketPattern) : Prop := .of p.host p.port = p

/-- The pattern of a host and a port is folded. -/
theorem SocketPattern.isFolded_of (host : Option String) (port : Option UInt16) :
    (SocketPattern.of host port).IsFolded := by
  cases host with
  | none => rfl
  | some host => simp [IsFolded, of, Text.lowerAscii_lowerAscii]

/-- Every socket rule of the registry has a folded pattern. -/
def Registry.IsFolded (r : Registry) : Prop :=
  ∀ p, r.sockets.contains p = true → p.IsFolded

namespace Table

variable {κ : Type u} {ν : Type v} [BEq κ] [LawfulBEq κ]

/-- A key that is contained after an insertion is the new one or was contained before. -/
theorem contains_insert {t : Table κ ν} {k p : κ} {v : ν}
    (h : (t.insert k v).contains p = true) : p = k ∨ t.contains p = true := by
  by_cases hkey : (k == p) = true
  · exact .inl (eq_of_beq hkey).symm
  · right
    rw [contains_eq_isSome] at h ⊢
    rwa [get?_insert_other _ (Bool.eq_false_iff.2 hkey)] at h

/-- After many insertions it is one of the new ones or was contained before. -/
theorem contains_insertAll {t : Table κ ν} {rows : List (κ × ν)} {p : κ}
    (h : (t.insertAll rows).contains p = true) :
    p ∈ rows.map (·.1) ∨ t.contains p = true := by
  induction rows generalizing t with
  | nil => exact .inr h
  | cons row rest ih =>
    rcases ih h with hrest | hfirst
    · exact .inl (List.mem_cons_of_mem _ hrest)
    · rcases contains_insert hfirst with rfl | hold
      · exact .inl List.mem_cons_self
      · exact .inr hold

end Table

namespace Registry

variable {r : Registry}

/-- A registry without socket rules is folded. -/
theorem isFolded_empty {r : Registry} (h : r.sockets = .empty) : r.IsFolded := by
  intro p hp
  rw [h] at hp
  cases hp

/-- Setting and noting keep a registry folded, since both make their pattern. -/
theorem IsFolded.insert (h : r.IsFolded) {r' : Registry} {host : Option String}
    {port : Option UInt16} {rule : Rule} (hr' : r'.sockets = r.sockets.insert (.of host port) rule) :
    r'.IsFolded := by
  intro p hp
  rw [hr'] at hp
  rcases Table.contains_insert hp with rfl | hold
  · exact SocketPattern.isFolded_of host port
  · exact h p hold

/-- So does taking over a document. -/
theorem IsFolded.apply (h : r.IsFolded) (d : Document) : (r.apply d).IsFolded := by
  intro p hp
  rcases Table.contains_insertAll hp with hnew | hold
  · rw [List.map_map] at hnew
    obtain ⟨record, -, rfl⟩ := List.mem_map.1 hnew
    exact SocketPattern.isFolded_of record.host record.port
  · exact h p hold

/-- The registry of a document is folded, however the document spells its hosts. -/
theorem isFolded_ofDocument (d : Document) : (ofDocument d).IsFolded :=
  (isFolded_empty rfl).apply d

end Registry

namespace Book

/-- Saving a book does nothing to its registry. -/
theorem registry_saveTo (b : Book) (path : String) : (b.saveTo path).2.registry = b.registry := by
  simp only [saveTo]

/-- Neither does saving it to its own place. -/
theorem registry_save (b : Book) : b.save.2.registry = b.registry := by
  unfold save
  split
  · exact registry_saveTo b _
  · rfl

/-- Every operation keeps the hosts of a book folded. -/
theorem isFolded_perform {b : Book} (h : b.registry.IsFolded) (op : PolicyOp) :
    (b.perform op).registry.IsFolded := by
  have hsame : (b.perform op).registry.sockets = b.registry.sockets →
      (b.perform op).registry.IsFolded := by
    intro heq p hp
    rw [heq] at hp
    exact h p hp
  cases op with
  | setSocket host port status => exact h.insert (RuleTable.sockets.rules_perform b (by simp))
  | setDataSource url user status => exact hsame (RuleTable.sockets.rules_perform b (by simp))
  | resolveSocket host port =>
    have hsockets : (b.perform (.resolveSocket host port)).registry.sockets =
        if b.registry.sockets.contains (.exact host port) then b.registry.sockets
        else b.registry.sockets.insert (.exact host port) .noted := RuleTable.sockets.rules_perform b (by simp)
    by_cases hold : b.registry.sockets.contains (.exact host port) = true
    · rw [if_pos hold] at hsockets
      exact hsame hsockets
    · rw [if_neg hold] at hsockets
      exact h.insert hsockets
  | resolveDataSource url user => exact hsame (RuleTable.sockets.rules_perform b (by simp))
  | clear => exact Registry.isFolded_empty rfl

/-- **The books that come about by use.**  A registry begins without rules or with those of a
document, and every operation may follow.  The disk has a life of its own: saving changes it, and
so may anybody else. -/
inductive Reachable : Book → Prop
  | new (disk : Disk) : Reachable { disk := disk }
  | ofDocument (d : Document) (disk : Disk) :
      Reachable { registry := .ofDocument d, disk := disk }
  | fromJson {text : String} {r : Registry} (hread : Registry.fromJson text = .ok r)
      (disk : Disk) : Reachable { registry := r, disk := disk }
  | openFile {b opened : Book} {path : String} (h : b.Reachable)
      (hopen : b.openFile path = .ok opened) : opened.Reachable
  | readFrom {b : Book} {bytes : ByteArray} {r : Registry} (h : b.Reachable)
      (hread : b.registry.readFrom bytes = .ok r) : Reachable { b with registry := r }
  | perform {b : Book} (h : b.Reachable) (op : PolicyOp) : (b.perform op).Reachable
  | setPersistent {b : Book} (h : b.Reachable) (on : Bool) : (b.setPersistent on).Reachable
  | setStorage {b : Book} (h : b.Reachable) (path : Option String) : (b.setStorage path).Reachable
  | save {b : Book} (h : b.Reachable) : b.save.2.Reachable
  | saveTo {b : Book} (h : b.Reachable) (path : String) : (b.saveTo path).2.Reachable
  | elsewhere {b : Book} (h : b.Reachable) (disk : Disk) : Reachable { b with disk := disk }

/-- **Whatever use made of a book, its hosts are folded.** -/
theorem Reachable.isFolded {b : Book} (h : b.Reachable) : b.registry.IsFolded := by
  induction h with
  | new _ => exact Registry.isFolded_empty rfl
  | ofDocument d _ => exact Registry.isFolded_ofDocument d
  | fromJson hread _ =>
    obtain ⟨d, -, rfl⟩ := Except.map_eq_ok_iff.1 hread
    exact Registry.isFolded_ofDocument d
  | openFile _ hopen _ =>
    obtain ⟨d, -, rfl⟩ := Except.map_eq_ok_iff.1 hopen
    exact Registry.isFolded_ofDocument d
  | readFrom _ hread ih =>
    obtain ⟨d, -, rfl⟩ := Except.map_eq_ok_iff.1 hread
    exact ih.apply d
  | perform _ op ih => exact isFolded_perform ih op
  | setPersistent _ on ih =>
    rw [Book.setPersistent, registry_keep]
    exact ih
  | setStorage _ path ih => exact ih
  | save _ ih =>
    rw [registry_save]
    exact ih
  | saveTo _ path ih =>
    rw [registry_saveTo]
    exact ih
  | elsewhere _ _ ih => exact ih

end Book

/-! ## A registry and its document -/

instance : Std.TransCmp SocketPattern.order :=
  inferInstanceAs <| Std.TransCmp <|
    compareLex (compareOn fun p : SocketPattern => p.host) (compareOn fun p => p.port)

instance : Std.TransCmp DataSourcePattern.order :=
  inferInstanceAs <| Std.TransCmp <|
    compareLex (compareOn fun p : DataSourcePattern => p.url) (compareOn fun p => p.user)

instance : Std.LawfulEqCmp SocketPattern.order where
  eq_of_compare {a b} h := by
    obtain ⟨hhost, hport⟩ := Ordering.then_eq_eq.1 h
    rw [SocketPattern.mk.injEq]
    exact ⟨Std.LawfulEqOrd.eq_of_compare hhost, Std.LawfulEqOrd.eq_of_compare hport⟩

instance : Std.LawfulEqCmp DataSourcePattern.order where
  eq_of_compare {a b} h := by
    obtain ⟨hurl, huser⟩ := Ordering.then_eq_eq.1 h
    rw [DataSourcePattern.mk.injEq]
    exact ⟨Std.LawfulEqOrd.eq_of_compare hurl, Std.LawfulEqOrd.eq_of_compare huser⟩

namespace Registry

/-- Two registries **agree** when they list the same entries, are both to be kept or both not, and
give every socket and data source the same status. -/
structure Agrees (r r' : Registry) : Prop where
  entries : r.entries = r'.entries
  persistent : r.persistent = r'.persistent
  socketStatus : ∀ host port, r.socketStatus host port = r'.socketStatus host port
  dataSourceStatus : ∀ url user, r.dataSourceStatus url user = r'.dataSourceStatus url user

variable {r : Registry}

/-- The rows of a folded registry are folded. -/
theorem isFolded_of_mem_socketRows (h : r.IsFolded) {row : SocketPattern × Rule}
    (hrow : row ∈ r.socketRows) : row.1.IsFolded := by
  have hmem : row ∈ r.sockets.rows := (r.sockets.sorted_perm _).mem_iff.1 hrow
  refine h row.1 ?_
  rw [Table.contains_eq_isSome, Table.get?_of_mem_rows hmem]
  rfl

/-- Folding again changes nothing, so the records of the document are the listed rules. -/
theorem sockets_ofDocument (h : r.IsFolded) :
    (ofDocument r.toDocument).sockets = .ofList r.socketRows := by
  have hrows : (r.toDocument.sockets.map fun record =>
      (SocketPattern.of record.host record.port, (⟨record.status, record.discovered⟩ : Rule))) =
        r.socketRows := by
    rw [toDocument, List.map_map]
    refine (List.map_congr_left fun row hrow => ?_).trans (List.map_id _)
    exact Prod.ext (isFolded_of_mem_socketRows h hrow) rfl
  exact congrArg Table.ofList hrows

/-- The data source rules that are read back are those that were written, in their order. -/
theorem dataSources_ofDocument (r : Registry) :
    (ofDocument r.toDocument).dataSources = .ofList r.dataSourceRows := by
  have hrows : (r.toDocument.dataSources.map fun record =>
      ((⟨record.url, record.user⟩ : DataSourcePattern),
        (⟨record.status, record.discovered⟩ : Rule))) = r.dataSourceRows := by
    rw [toDocument, List.map_map]
    exact List.map_id _
  exact congrArg Table.ofList hrows

/-- Whether a registry is persistent is read from its document. -/
theorem persistent_ofDocument (d : Document) : (ofDocument d).persistent = d.persistent :=
  Bool.false_or _

/-- The sockets and the data sources of a listing can be told apart. -/
theorem rows_eq_of_entries {r' : Registry} (h : r.entries = r'.entries) :
    r.socketRows = r'.socketRows ∧ r.dataSourceRows = r'.dataSourceRows := by
  have hsockets : ∀ r : Registry, r.entries.filterMap
      (fun | .socket pattern rule => some (pattern, rule) | _ => none) = r.socketRows := by
    intro r
    simp [entries, List.filterMap_append, List.filterMap_map]
  have hdataSources : ∀ r : Registry, r.entries.filterMap
      (fun | .dataSource pattern rule => some (pattern, rule) | _ => none) = r.dataSourceRows := by
    intro r
    simp [entries, List.filterMap_append, List.filterMap_map]
  constructor
  · rw [← hsockets r, ← hsockets r', h]
  · rw [← hdataSources r, ← hdataSources r', h]

/-- **Two registries list the same entries exactly when they hold the same rules.** -/
theorem entries_eq_iff {r' : Registry} : r.entries = r'.entries ↔
    (∀ p, r.sockets.get? p = r'.sockets.get? p) ∧
      ∀ p, r.dataSources.get? p = r'.dataSources.get? p := by
  constructor
  · intro h
    obtain ⟨hsockets, hdataSources⟩ := rows_eq_of_entries h
    exact ⟨(Table.sorted_eq_iff _).1 hsockets, (Table.sorted_eq_iff _).1 hdataSources⟩
  · rintro ⟨hsockets, hdataSources⟩
    have hsocketRows : r.socketRows = r'.socketRows := (Table.sorted_eq_iff _).2 hsockets
    have hdataSourceRows : r.dataSourceRows = r'.dataSourceRows :=
      (Table.sorted_eq_iff _).2 hdataSources
    rw [entries, entries, hsocketRows, hdataSourceRows]

/-- A registry with the entries of a folded one is folded. -/
theorem IsFolded.of_entries {r' : Registry} (h : r.IsFolded) (hentries : r.entries = r'.entries) :
    r'.IsFolded := by
  intro p hp
  rw [Table.contains_eq_isSome, ← (entries_eq_iff.1 hentries).1 p,
    ← Table.contains_eq_isSome] at hp
  exact h p hp

/-- The first pattern of a socket's chain that was set gives its status. -/
theorem socketStatus_eq (h : r.IsFolded) (host : String) (port : UInt16) :
    r.socketStatus host port =
      ((SocketPattern.chain host port).findSome? (setIn r.sockets)).getD .opened := by
  refine ruling_eq_firstSet (fun p hp => ?_) (SocketPattern.chain_falls host port)
  rw [← h p hp]
  exact SocketPattern.covers_of_iff

/-- The first pattern of a data source's chain that was set gives its status. -/
theorem dataSourceStatus_eq (r : Registry) (url : String) (user : Option String) :
    r.dataSourceStatus url user =
      ((DataSourcePattern.chain url user).findSome? (setIn r.dataSources)).getD .opened :=
  ruling_eq_firstSet (fun _ _ => DataSourcePattern.covers_iff_mem_chain)
    (DataSourcePattern.chain_falls url user)

/-- **Folded registries with the same entries agree**, in whatever order their rules came. -/
theorem agrees_of_entries {r' : Registry} (h : r.IsFolded) (hentries : r.entries = r'.entries)
    (hpersistent : r.persistent = r'.persistent) : r.Agrees r' := by
  obtain ⟨hsockets, hdataSources⟩ := entries_eq_iff.1 hentries
  have hsocketSet : setIn r.sockets = setIn r'.sockets := by
    funext p
    rw [setIn, setIn, hsockets p]
  have hdataSourceSet : setIn r.dataSources = setIn r'.dataSources := by
    funext p
    rw [setIn, setIn, hdataSources p]
  refine ⟨hentries, hpersistent, ?_, ?_⟩
  · intro host port
    rw [socketStatus_eq h, socketStatus_eq (h.of_entries hentries), hsocketSet]
  · intro url user
    rw [dataSourceStatus_eq, dataSourceStatus_eq, hdataSourceSet]

/-- **The document of a folded registry describes that registry.** -/
theorem agrees_ofDocument (h : r.IsFolded) : (ofDocument r.toDocument).Agrees r := by
  have hsockets : (ofDocument r.toDocument).socketRows = r.socketRows := by
    rw [socketRows, sockets_ofDocument h]
    exact r.sockets.sorted_ofList_sorted _
  have hdataSources : (ofDocument r.toDocument).dataSourceRows = r.dataSourceRows := by
    rw [dataSourceRows, dataSources_ofDocument]
    exact r.dataSources.sorted_ofList_sorted _
  refine agrees_of_entries (isFolded_ofDocument _) ?_ (persistent_ofDocument _)
  rw [entries, entries, hsockets, hdataSources]

end Registry

/-- **A policy survives being written down.**  Every document is read back from either layout of
its JSON text, and what is read back from the JSON text of a registry agrees with that registry,
however it came about. -/
theorem policy_survives_writing :
    (∀ d : Document, Document.ofText d.compact = .ok d ∧ Document.ofText d.pretty = .ok d) ∧
      ∀ b : Book, b.Reachable →
        ∃ r, Registry.fromJson b.registry.toJson = .ok r ∧ r.Agrees b.registry := by
  constructor
  · intro d
    exact ⟨d.ofText_compact, d.ofText_pretty⟩
  · intro b hb
    refine ⟨.ofDocument b.registry.toDocument, ?_, Registry.agrees_ofDocument hb.isFolded⟩
    rw [Registry.fromJson, Registry.toJson, Document.ofText_compact]
    rfl

/-- A rule for a host with capitals, a quote and a line feed in its name survives, next to a data
source that was only asked about and whose URL is empty. -/
theorem policy_survives_writing_quotedHost :
    let b : Book :=
      (Book.perform {} (.setSocket (some "D\"B\\\n") none (.refuseAfter 7))).perform
        (.resolveDataSource "" none)
    b.Reachable ∧ (∃ r, Registry.fromJson b.registry.toJson = .ok r ∧ r.Agrees b.registry) ∧
      b.registry.socketStatus "d\"b\\\n" 1 = .refuseAfter 7 := by
  intro b
  have hb : b.Reachable := ((Book.Reachable.new {}).perform _).perform _
  exact ⟨hb, policy_survives_writing.2 b hb, by decide⟩

end Wiretap
