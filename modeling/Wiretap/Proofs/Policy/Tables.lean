import Wiretap.Policy.Book
import Wiretap.Proofs.Policy.Ruling
/-!
# The two tables of a registry

A registry has a table of rules about sockets and one of rules about data sources.  They are written
to in the same ways: by the operations on a book, each of which touches at most one of them, and by
the records of a document.  What is said of both is said once, of a `RuleTable`: one of the tables,
with the touches and the records that go to it.

* The **touches** of a history are its operations since it was last cleared, as far as they concern
  one kind of pattern; hosts are folded in them.
* `Book.registry_perform` is the one place where the operations are gone through; a table learns from
  it what each of them does to it.
* `RuleTable.rules_after` reads a table off a history, and `RuleTable.get?_rules_apply` off a
  document that is merged into it.
-/

namespace Wiretap

/-- What is done to a policy book. -/
inductive PolicyOp where
  | setSocket (host : Option String) (port : Option UInt16) (status : Status)
  | setDataSource (url user : Option String) (status : Status)
  | resolveSocket (host : String) (port : UInt16)
  | resolveDataSource (url : String) (user : Option String)
  | clear
  deriving DecidableEq, Repr

namespace PolicyOp

/-- What an operation does to the rules about sockets; a question touches its exact pattern. -/
def socketTouch? : PolicyOp → Option (Touch SocketPattern)
  | setSocket host port status => some (.set (.of host port) status)
  | resolveSocket host port => some (.seen (.exact host port))
  | _ => none

/-- What an operation does to the rules about data sources. -/
def dataSourceTouch? : PolicyOp → Option (Touch DataSourcePattern)
  | setDataSource url user status => some (.set ⟨url, user⟩ status)
  | resolveDataSource url user => some (.seen ⟨some url, user⟩)
  | _ => none

/-- The pattern that an operation sets a rule for, if it sets one. -/
def target? : PolicyOp → Option (SocketPattern ⊕ DataSourcePattern)
  | setSocket host port _ => some (.inl (.of host port))
  | setDataSource url user _ => some (.inr ⟨url, user⟩)
  | _ => none

/-- Whether an operation only asks. -/
def asks : PolicyOp → Bool
  | resolveSocket _ _ | resolveDataSource _ _ => true
  | _ => false

/-- The operation with its host in lower case. -/
def folded : PolicyOp → PolicyOp
  | setSocket host port status => setSocket (host.map Text.lowerAscii) port status
  | resolveSocket host port => resolveSocket (Text.lowerAscii host) port
  | op => op

/-- The operations after the last time that the book was cleared. -/
def sinceClear (ops : List PolicyOp) : List PolicyOp :=
  ops.rtakeWhile (· ≠ clear)

/-- The touches of one kind of pattern since the book was last cleared. -/
def touches {κ : Type u} (touch? : PolicyOp → Option (Touch κ)) (ops : List PolicyOp) : Touches κ :=
  (sinceClear ops).filterMap touch?

/-- The touches of socket patterns. -/
abbrev socketTouches : List PolicyOp → Touches SocketPattern := touches socketTouch?

/-- The touches of data source patterns. -/
abbrev dataSourceTouches : List PolicyOp → Touches DataSourcePattern := touches dataSourceTouch?

theorem sinceClear_concat_clear (ops : List PolicyOp) : sinceClear (ops ++ [clear]) = [] := by
  rw [sinceClear, List.rtakeWhile_concat_neg _ _ _ (by simp)]

/-- An operation that clears nothing is one more since the last clearing. -/
theorem sinceClear_concat {op : PolicyOp} (h : op ≠ clear) (ops : List PolicyOp) :
    sinceClear (ops ++ [op]) = sinceClear ops ++ [op] := by
  rw [sinceClear, List.rtakeWhile_concat_pos _ _ _ (by simpa using h), sinceClear]

/-- A later part without a clearing goes on from the earlier part. -/
theorem sinceClear_append {later : List PolicyOp} (h : clear ∉ later) (earlier : List PolicyOp) :
    sinceClear (earlier ++ later) = sinceClear earlier ++ later := by
  induction later using List.reverseRecOn with
  | nil => simp
  | append_singleton later op ih =>
    have hop : op ≠ clear := fun heq => h (by simp [heq])
    have hlater : clear ∉ later := fun hmem => h (by simp [hmem])
    rw [← List.append_assoc, sinceClear_concat hop, ih hlater, List.append_assoc]

/-- A later part with a clearing forgets the earlier part. -/
theorem sinceClear_append_of_mem {later : List PolicyOp} (h : clear ∈ later)
    (earlier : List PolicyOp) : sinceClear (earlier ++ later) = sinceClear later := by
  induction later using List.reverseRecOn with
  | nil => cases h
  | append_singleton later op ih =>
    rw [← List.append_assoc]
    by_cases hop : op = clear
    · subst hop
      rw [sinceClear_concat_clear, sinceClear_concat_clear]
    · have hmem : clear ∈ later := by
        rcases List.mem_append.1 h with hmem | hlast
        · exact hmem
        · exact absurd (List.mem_singleton.1 hlast).symm hop
      rw [sinceClear_concat hop, sinceClear_concat hop, ih hmem]

end PolicyOp

namespace Registry

/-- Noting a socket touches its exact pattern. -/
theorem noteSocket_eq (r : Registry) (host : String) (port : UInt16) :
    r.noteSocket host port =
      { r with sockets := (Touch.seen (.exact host port)).apply r.sockets } := by
  unfold noteSocket Touch.apply
  dsimp only
  split <;> rfl

/-- Noting a data source touches its exact pattern. -/
theorem noteDataSource_eq (r : Registry) (url : String) (user : Option String) :
    r.noteDataSource url user =
      { r with dataSources := (Touch.seen ⟨some url, user⟩).apply r.dataSources } := by
  unfold noteDataSource Touch.apply
  dsimp only
  split <;> rfl

end Registry

namespace Book

/-- The book after an operation. -/
def perform (b : Book) : PolicyOp → Book
  | .setSocket host port status => b.setSocket (.of host port) status
  | .setDataSource url user status => b.setDataSource ⟨url, user⟩ status
  | .resolveSocket host port => (b.resolveSocket host port).2
  | .resolveDataSource url user => (b.resolveDataSource url user).2
  | .clear => b.clear

/-- The book after operations one after another. -/
def after (b : Book) (ops : List PolicyOp) : Book := ops.foldl perform b

/-- Keeping a registry on disk does not change it, whatever the disk does. -/
theorem registry_keep (b : Book) : b.keep.registry = b.registry := by
  unfold keep save saveTo
  split
  · split <;> rfl
  · rfl

/-- A book that notes a socket has a registry that notes it. -/
theorem registry_noteSocket (b : Book) (host : String) (port : UInt16) :
    (b.noteSocket host port).registry = b.registry.noteSocket host port := by
  unfold noteSocket
  split
  · rename_i hold
    rw [Registry.noteSocket, if_pos hold]
  · exact registry_keep _

/-- A book that notes a data source has a registry that notes it. -/
theorem registry_noteDataSource (b : Book) (url : String) (user : Option String) :
    (b.noteDataSource url user).registry = b.registry.noteDataSource url user := by
  unfold noteDataSource
  split
  · rename_i hold
    rw [Registry.noteDataSource, if_pos hold]
  · exact registry_keep _

/-- **One operation.**  Every operation but clearing touches the tables as its touches say. -/
theorem registry_perform {op : PolicyOp} (h : op ≠ .clear) (b : Book) :
    (b.perform op).registry =
      { b.registry with
        sockets := op.socketTouch?.toList.foldl Touch.apply b.registry.sockets
        dataSources := op.dataSourceTouch?.toList.foldl Touch.apply b.registry.dataSources } := by
  cases op with
  | setSocket host port status => exact registry_keep _
  | setDataSource url user status => exact registry_keep _
  | resolveSocket host port => exact (b.registry_noteSocket host port).trans (Registry.noteSocket_eq ..)
  | resolveDataSource url user =>
    exact (b.registry_noteDataSource url user).trans (Registry.noteDataSource_eq ..)
  | clear => exact absurd rfl h

/-- A history goes on with its next operation. -/
theorem after_concat (b : Book) (ops : List PolicyOp) (op : PolicyOp) :
    b.after (ops ++ [op]) = (b.after ops).perform op := by
  simp [after, List.foldl_append]

end Book

namespace Document

/-- The socket rules that the records write, in their order. -/
def socketRules (d : Document) : List (SocketPattern × Rule) :=
  d.sockets.map fun record =>
    (.of record.host record.port, ⟨record.status, record.discovered⟩)

/-- The data source rules that the records write, in their order. -/
def dataSourceRules (d : Document) : List (DataSourcePattern × Rule) :=
  d.dataSources.map fun record =>
    (⟨record.url, record.user⟩, ⟨record.status, record.discovered⟩)

/-- The document without the records that are marked as discovered. -/
def withoutDiscovered (d : Document) : Document :=
  { d with
    sockets := d.sockets.filter fun record => !record.discovered
    dataSources := d.dataSources.filter fun record => !record.discovered }

end Document

/-- One of the tables of a registry, with the touches and the records that go to it. -/
structure RuleTable (κ : Type) [DecidableEq κ] where
  rules : Registry → Table κ Rule
  touch? : PolicyOp → Option (Touch κ)
  records : Document → List (κ × Rule)
  rules_new : rules {} = .empty
  rules_clear : ∀ r : Registry, rules r.clear = .empty
  rules_apply : ∀ (r : Registry) (d : Document), rules (r.apply d) = (rules r).insertAll (records d)
  rules_eq : ∀ (r : Registry) (persistent : Bool) (storage : Option String),
    rules { r with persistent, storage } = rules r
  rules_perform : ∀ (b : Book) {op : PolicyOp}, op ≠ .clear →
    rules (b.perform op).registry = (touch? op).toList.foldl Touch.apply (rules b.registry)
  records_withoutDiscovered : ∀ d : Document,
    records d.withoutDiscovered = (records d).filter fun row => !row.2.discovered

namespace RuleTable

/-- The rules about sockets. -/
def sockets : RuleTable SocketPattern where
  rules := Registry.sockets
  touch? := PolicyOp.socketTouch?
  records := Document.socketRules
  rules_new := rfl
  rules_clear _ := rfl
  rules_apply _ _ := rfl
  rules_eq _ _ _ := rfl
  rules_perform b _ h := by rw [Book.registry_perform h]
  records_withoutDiscovered d := by
    rw [Document.socketRules, Document.socketRules, List.filter_map]
    rfl

/-- The rules about data sources. -/
def dataSources : RuleTable DataSourcePattern where
  rules := Registry.dataSources
  touch? := PolicyOp.dataSourceTouch?
  records := Document.dataSourceRules
  rules_new := rfl
  rules_clear _ := rfl
  rules_apply _ _ := rfl
  rules_eq _ _ _ := rfl
  rules_perform b _ h := by rw [Book.registry_perform h]
  records_withoutDiscovered d := by
    rw [Document.dataSourceRules, Document.dataSourceRules, List.filter_map]
    rfl

variable {κ : Type} [DecidableEq κ] (t : RuleTable κ)

/-- **The table after a history** is what its touches since the last clearing make.  The induction
takes the last operation off, since a clearing cuts off all that stands before it. -/
theorem rules_after {b : Book} (hb : t.rules b.registry = .empty) (ops : List PolicyOp) :
    t.rules (b.after ops).registry = (PolicyOp.touches t.touch? ops).rules := by
  induction ops using List.reverseRecOn with
  | nil => exact hb
  | append_singleton ops op ih =>
    rw [Book.after_concat]
    by_cases hop : op = .clear
    · subst hop
      rw [PolicyOp.touches, PolicyOp.sinceClear_concat_clear]
      exact t.rules_clear _
    · have htouches : PolicyOp.touches t.touch? (ops ++ [op]) =
          PolicyOp.touches t.touch? ops ++ (t.touch? op).toList := by
        rw [PolicyOp.touches, PolicyOp.sinceClear_concat hop, List.filterMap_append]
        cases htouch : t.touch? op <;> simp [PolicyOp.touches, htouch]
      rw [t.rules_perform _ hop, ih, htouches, Touches.rules, Touches.rules, List.foldl_append]

/-- What a document says of a pattern: the rule of the last record that has it. -/
def rule? (d : Document) (p : κ) : Option Rule := (t.records d).reverse.lookup p

/-- **The table after a merge.**  The last record of a pattern rules, and a pattern without a record
keeps the rule it had. -/
theorem get?_rules_apply (r : Registry) (d : Document) (p : κ) :
    (t.rules (r.apply d)).get? p = (t.rule? d p).or ((t.rules r).get? p) := by
  rw [t.rules_apply, Table.get?_insertAll, rule?]

end RuleTable

end Wiretap
