import Mathlib.Logic.Relation
import Wiretap.Session
import Wiretap.Proofs.Application.Ledger
/-!
# A session is an application

What a session does at its tap is what an application does there, so what is said about runs of an
application is said about sessions (`Session.Lives.plays`): whatever a session has come to since it
had opened nothing, some run of an application has brought its tap there.

A session knows its streams by names that may be given anew, and its application by places that are
never given anew; a session that **plays** an application has a place for each name.  The outside
of the application need not remember anything: a tap makes of a call what its answer makes of it
(`Tap.ask_answer`), and the session tells the answers.
-/

namespace Wiretap

open Simulated

namespace Tap

variable {σ τ α ε : Type}

/-- Outsides that give the same answer look the same to a tap. -/
theorem ask_answer (t : Tap) {f : σ → α × σ} {x : σ} {g : τ → α × τ} {y : τ}
    (h : (f x).1 = (g y).1) :
    (t.ask f x).1 = (t.ask g y).1 ∧ (t.ask f x).2.2 = (t.ask g y).2.2 := by
  constructor
  · simp only [ask, h]
  · rfl

/-- A statement is answered and recorded alike if the outsides answer alike. -/
theorem statement_answer (t : Tap) (caller : Caller) (sql : String) (kind : Option StatementKind)
    (rows : α → UInt64) {f : σ → Except ε α × σ} {x : σ} {g : τ → Except ε α × τ} {y : τ}
    (h : (f x).1 = (g y).1) :
    (t.statement caller sql kind rows f x).1 = (t.statement caller sql kind rows g y).1 ∧
      (t.statement caller sql kind rows f x).2.2 =
        (t.statement caller sql kind rows g y).2.2 := by
  obtain ⟨htimed, htap⟩ := t.ask_answer h
  simp only [statement, htimed, htap, and_self]

/-- A data source is opened alike if the outsides answer alike. -/
theorem openDataSource_answer (t : Tap) (caller : Caller) (url : String) (user : Option String)
    {f : σ → Except ε α × σ} {x : σ} {g : τ → Except ε α × τ} {y : τ}
    (h : (f x).1 = (g y).1) :
    (t.openDataSource caller url user f x).1 = (t.openDataSource caller url user g y).1 ∧
      (t.openDataSource caller url user f x).2.2 =
        (t.openDataSource caller url user g y).2.2 := by
  simp only [openDataSource]
  split
  · exact ⟨rfl, rfl⟩
  · obtain ⟨hanswer, htap⟩ := statement_answer
      ({ t with book := (t.book.resolveDataSource url user).2 }.delay
        (t.book.resolveDataSource url user).1) caller dataSourceConnect (some .system)
      (fun _ => 0) h
    exact ⟨congrArg (Except.mapError Denial.failed) hanswer, htap⟩

/-- A connection is opened alike if the outsides answer alike. -/
theorem connect_answer (t : Tap) (caller : Caller) (address : Address)
    {f : σ → Except ε α × σ} {x : σ} {g : τ → Except ε α × τ} {y : τ}
    (h : (f x).1 = (g y).1) :
    (t.connect caller address f x).1 = (t.connect caller address g y).1 ∧
      (t.connect caller address f x).2.2 = (t.connect caller address g y).2.2 := by
  simp only [connect]
  split
  · exact ⟨rfl, rfl⟩
  · simp only [ask, h]
    split <;> exact ⟨rfl, rfl⟩

/-- Bytes are transferred alike if the outsides answer alike. -/
theorem transfer_answer (t : Tap) (caller : Caller) (id : ConnectionId) (direction : Direction)
    (moved : α → List UInt8) {f : σ → Except ε α × σ} {x : σ} {g : τ → Except ε α × τ} {y : τ}
    (h : (f x).1 = (g y).1) :
    (t.transfer caller id direction moved f x).1 = (t.transfer caller id direction moved g y).1 ∧
      (t.transfer caller id direction moved f x).2.2 =
        (t.transfer caller id direction moved g y).2.2 := by
  simp only [transfer]
  split
  · exact ⟨rfl, rfl⟩
  · simp only [ask, h]
    exact ⟨trivial, trivial⟩

end Tap

namespace Session

/-- One step of a session, in which its ledger is not cleared.  The network and the data sources
may change beside it. -/
inductive Moves (s : Session) : Session → Prop where
  | connect (caller : Caller) (name : String) (address : Address) :
      s.Moves (s.connect caller name address).2
  | write (caller : Caller) (name : String) (bytes : List UInt8) :
      s.Moves (s.write caller name bytes).2
  | read (caller : Caller) (name : String) (count : Nat) : s.Moves (s.read caller name count).2
  | flush (name : String) : s.Moves (s.flush name).2
  | closeTraffic (name : String) : s.Moves (s.closeTraffic name)
  | dropStream (name : String) : s.Moves (s.dropStream name)
  | wrap (name : String) (executor : Executor) : s.Moves (s.wrap name executor)
  | unwrap (name : String) : s.Moves (s.unwrap name)
  | query (caller : Caller) (name sql : String) : s.Moves (s.query caller name sql).2
  | execute (caller : Caller) (name sql : String) : s.Moves (s.execute caller name sql).2
  | executeBatch (caller : Caller) (name : String) (batch : List String) :
      s.Moves (s.executeBatch caller name batch).2
  | executeBeside (name sql : String) : s.Moves (s.executeBeside name sql).2
  | systemCall {α : Type} (caller : Caller) (name call : String) (inner : Option String)
      (outcome : Except String α) : s.Moves (s.systemCall caller name call inner outcome).2
  | addBatch (name sql : String) : s.Moves (s.addBatch name sql)
  | clearBatch (name : String) : s.Moves (s.setPending name [])
  | executePending (caller : Caller) (name : String) : s.Moves (s.executePending caller name).2
  | openDataSource (caller : Caller) (source name : String) :
      s.Moves (s.openDataSource caller source name).2
  | policy (change : Book → Book) :
      s.Moves { s with tap := { s.tap with book := change s.tap.book } }
  | clock (change : Clock → Clock) :
      s.Moves { s with tap := { s.tap with clock := change s.tap.clock } }
  | aside (network : Network) (sources : Table String DataSource) :
      s.Moves { s with network := network, sources := sources }

/-- What a session does step after step. -/
abbrev Runs : Session → Session → Prop := Relation.ReflTransGen Moves

/-- To write all of something is to write it once, or not at all. -/
theorem runs_writeAll (s : Session) (caller : Caller) (name : String) (bytes : List UInt8) :
    s.Runs (s.writeAll caller name bytes).2 := by
  unfold writeAll
  split
  · exact .refl
  · exact .single (.write caller name bytes)

/-- To read by portions is to read step after step. -/
theorem runs_readPortions (s : Session) (caller : Caller) (name : String) (portion : Nat)
    (taken : List UInt8) (fuel : Nat) :
    s.Runs (s.readPortions caller name portion taken fuel).2 := by
  induction fuel generalizing s taken with
  | zero => exact .refl
  | succ fuel ih =>
    have hread : s.Moves (s.read caller name portion).2 := .read caller name portion
    unfold readPortions
    split
    · rename_i bytes s' hresult
      rw [hresult] at hread
      split
      · exact .single hread
      · exact .head hread (ih s' _)
    · exact .single hread

/-- To read to the end is to read by portions. -/
theorem runs_readToEnd (s : Session) (caller : Caller) (name : String) :
    s.Runs (s.readToEnd caller name).2 :=
  s.runs_readPortions caller name 16 [] _

/-- The identities of the streams, by name. -/
def ids (s : Session) (name : String) : Option ConnectionId :=
  (s.streams.get? name).map Stream.id

theorem pending_eq (s : Session) :
    s.pending = (fun statement => (statement.map Statement.pending).getD []) ∘ s.statements.get? :=
  rfl

/-- A stream that gets a name has its identity under that name. -/
theorem ids_insert {s s' : Session} {name : String} {stream : Stream}
    (h : s'.streams = s.streams.insert name stream) :
    s'.ids = Function.update s.ids name (some stream.id) := by
  unfold ids
  rw [h]
  exact Table.map_get?_insert s.streams name stream Stream.id

/-- A name that is given up has no identity. -/
theorem ids_erase {s s' : Session} {name : String} (h : s'.streams = s.streams.erase name) :
    s'.ids = Function.update s.ids name none := by
  unfold ids
  rw [h]
  exact Table.map_get?_erase s.streams name Stream.id

/-- A statement that gets a name has what it put aside under that name. -/
theorem pending_insert {s s' : Session} {name : String} {statement : Statement}
    (h : s'.statements = s.statements.insert name statement) :
    s'.pending = Function.update s.pending name statement.pending := by
  rw [pending_eq, h, Table.get?_insert, Function.comp_update]
  rfl

/-- Under a name that is given up nothing is put aside. -/
theorem pending_erase {s s' : Session} {name : String}
    (h : s'.statements = s.statements.erase name) :
    s'.pending = Function.update s.pending name [] := by
  rw [pending_eq, h, Table.get?_erase, Function.comp_update]
  rfl

/-- Each name has a place of its own, at which the stream of the name stands and is in use. -/
structure Placed (place : String → Nat) (ids : String → Option ConnectionId)
    (streams : List OpenedStream) : Prop where
  stands : ∀ name id, ids name = some id → streams[place name]? = some { id }
  apart : ∀ name other, (ids name).isSome → (ids other).isSome → place name = place other →
    name = other

namespace Placed

variable {place : String → Nat} {ids : String → Option ConnectionId}
  {streams : List OpenedStream}

/-- The place of a name is one of those that were opened. -/
theorem lt_length (h : Placed place ids streams) {name : String} (hname : (ids name).isSome) :
    place name < streams.length := by
  obtain ⟨id, hid⟩ := Option.isSome_iff_exists.1 hname
  exact (List.getElem?_eq_some_iff.1 (h.stands name id hid)).1

/-- Streams that are opened later stand behind. -/
theorem append (h : Placed place ids streams) (more : List OpenedStream) :
    Placed place ids (streams ++ more) := by
  refine ⟨fun name id hid => ?_, h.apart⟩
  rw [List.getElem?_append_left (h.lt_length (by rw [hid]; rfl))]
  exact h.stands name id hid

/-- A name is given up. -/
theorem forget (h : Placed place ids streams) (name : String) :
    Placed place (Function.update ids name none) streams := by
  have hkept : ∀ other id, Function.update ids name none other = some id →
      ids other = some id := by
    intro other id hid
    by_cases hother : other = name
    · rw [hother, Function.update_self] at hid
      cases hid
    · rw [Function.update_of_ne hother] at hid
      exact hid
  refine ⟨fun other id hid => h.stands other id (hkept other id hid), ?_⟩
  intro first second hfirst hsecond
  obtain ⟨id, hid⟩ := Option.isSome_iff_exists.1 hfirst
  obtain ⟨id', hid'⟩ := Option.isSome_iff_exists.1 hsecond
  exact h.apart first second (by rw [hkept first id hid]; rfl)
    (by rw [hkept second id' hid']; rfl)

/-- A stream that has no name may be dropped. -/
theorem drop (h : Placed place ids streams) {i : Nat}
    (hfree : ∀ name, (ids name).isSome → i ≠ place name) :
    Placed place ids (streams.modify i fun s => { s with dropped := true }) := by
  refine ⟨fun name id hid => ?_, h.apart⟩
  rw [List.getElem?_modify_ne _ _ (hfree name (by rw [hid]; rfl))]
  exact h.stands name id hid

/-- A name is given to a stream at a place that no name has. -/
theorem give (h : Placed place ids streams) {name : String} {i : Nat} {id : ConnectionId}
    (hi : streams[i]? = some { id }) (hfree : ∀ other, (ids other).isSome → place other ≠ i) :
    Placed (Function.update place name i) (Function.update ids name (some id)) streams := by
  constructor
  · intro other id' hid
    by_cases hother : other = name
    · subst hother
      rw [Function.update_self] at hid ⊢
      cases hid
      exact hi
    · rw [Function.update_of_ne hother] at hid ⊢
      exact h.stands other id' hid
  · intro first second hfirst hsecond heq
    by_cases hone : first = name
    · by_cases htwo : second = name
      · rw [hone, htwo]
      · rw [Function.update_of_ne htwo] at hsecond heq
        rw [hone, Function.update_self] at heq
        exact absurd heq.symm (hfree second hsecond)
    · rw [Function.update_of_ne hone] at hfirst heq
      by_cases htwo : second = name
      · rw [htwo, Function.update_self] at heq
        exact absurd heq (hfree first hfirst)
      · rw [Function.update_of_ne htwo] at hsecond heq
        exact h.apart first second hfirst hsecond heq

end Placed

/-- A session and an application that have done the same: they have one tap, each name has a place
of its own, and the same statements are put aside. -/
structure Plays (place : String → Nat) (s : Session) (a : Application Unit) : Prop where
  tap : a.tap = s.tap
  pending : a.pending = s.pending
  placed : Placed place s.ids a.streams

/-- By actions that do not clear the ledger, an application comes to play a session. -/
def Reaches (a : Application Unit) (s : Session) : Prop :=
  ∃ (actions : List (Action Unit)) (place : String → Nat),
    Action.clear ∉ actions ∧ Plays place s (a.run actions)

/-- A step may be made first, if it does not clear the ledger. -/
theorem Reaches.act {a : Application Unit} {s : Session} {act : Action Unit}
    (h : Reaches (a.perform act) s) (hclear : act.isClear = false) : Reaches a s := by
  obtain ⟨actions, place, hrest, hplays⟩ := h
  refine ⟨act :: actions, place, ?_, hplays⟩
  intro hmem
  rcases List.mem_cons.1 hmem with rfl | hmem
  · cases hclear
  · exact hrest hmem

namespace Plays

variable {place : String → Nat} {s : Session} {a : Application Unit}

/-- A session that is played already is reached without a step. -/
theorem reaches (h : Plays place s a) : Reaches a s := ⟨[], place, List.not_mem_nil, h⟩

/-- The stream of a name is live at its place. -/
theorem live? (h : Plays place s a) {name : String} {id : ConnectionId}
    (hid : s.ids name = some id) : a.live? (place name) = some id := by
  rw [Application.live?, h.placed.stands name id hid]
  rfl

/-- A call on a statement changes nothing but the tap. -/
theorem call (h : Plays place s a) {α ε : Type} {name : String} {statement : Statement}
    (hstatement : s.statements.get? name = some statement)
    (call : Tap → Executor → Except ε α × Executor × Tap) {a' : Application Unit}
    (htap : a'.tap = (call s.tap statement.executor).2.2) (hpending : a'.pending = a.pending)
    (hstreams : a'.streams = a.streams) : Plays place (s.onStatement name call).2 a' := by
  have hsame : s.pending name = statement.pending := by
    rw [Session.pending, hstatement]
    rfl
  unfold Session.onStatement
  rw [hstatement]
  refine ⟨htap, ?_, ?_⟩
  · rw [hpending, h.pending]
    refine Eq.trans ?_ (pending_insert rfl).symm
    rw [← hsame, Function.update_eq_self]
  · rw [hstreams]
    exact h.placed

/-- A call on a statement is followed by the action that makes the same call at the tap. -/
theorem onStatement (h : Plays place s a) {α ε : Type} (name : String)
    (call : Tap → Executor → Except ε α × Executor × Tap) (act : Executor → Action Unit)
    (hclear : ∀ e, (act e).isClear = false) (htap : ∀ e, (a.perform (act e)).tap = (call s.tap e).2.2)
    (hpending : ∀ e, (a.perform (act e)).pending = a.pending)
    (hstreams : ∀ e, (a.perform (act e)).streams = a.streams) :
    Reaches a (s.onStatement name call).2 := by
  cases hstatement : s.statements.get? name with
  | none =>
    rw [Session.onStatement, hstatement]
    exact h.reaches
  | some statement =>
    exact (h.call hstatement call (htap _) (hpending _) (hstreams _)).reaches.act (hclear _)

theorem query (h : Plays place s a) (caller : Caller) (name sql : String) :
    Reaches a (s.query caller name sql).2 := by
  unfold Session.query
  refine h.onStatement name _
    (fun e => .query (ρ := Nat) (ε := SqlError) caller sql fun _ => ((Executor.query sql e).1, ()))
    (fun e => rfl) (fun e => ?_) (fun e => rfl) (fun e => rfl)
  simp only [Application.perform, Application.settle, h.tap]
  exact (s.tap.statement_answer caller sql none _ rfl).2

theorem execute (h : Plays place s a) (caller : Caller) (name sql : String) :
    Reaches a (s.execute caller name sql).2 := by
  unfold Session.execute
  refine h.onStatement name _
    (fun e => .execute (ε := SqlError) caller sql fun _ => ((Executor.execute sql e).1, ()))
    (fun e => rfl) (fun e => ?_) (fun e => rfl) (fun e => rfl)
  simp only [Application.perform, Application.settle, h.tap]
  exact (s.tap.statement_answer caller sql none _ rfl).2

theorem executeBatch (h : Plays place s a) (caller : Caller) (name : String)
    (batch : List String) : Reaches a (s.executeBatch caller name batch).2 := by
  unfold Session.executeBatch
  refine h.onStatement name _
    (fun e => .executeBatch (ε := SqlError) caller batch
      fun batch _ => ((Executor.executeBatch batch e).1, ()))
    (fun e => rfl) (fun e => ?_) (fun e => rfl) (fun e => rfl)
  simp only [Application.perform, Application.settle, h.tap]
  exact (s.tap.statement_answer caller (Batch.describe batch) none _ rfl).2

/-- What runs beside the tap is followed by nothing. -/
theorem executeBeside (h : Plays place s a) (name sql : String) :
    Reaches a (s.executeBeside name sql).2 := by
  unfold Session.executeBeside
  cases hstatement : s.statements.get? name with
  | none =>
    rw [Session.onStatement, hstatement]
    exact h.reaches
  | some statement => exact (h.call hstatement _ h.tap rfl rfl).reaches

theorem systemCall (h : Plays place s a) {α : Type} (caller : Caller) (name call : String)
    (inner : Option String) (outcome : Except String α) :
    Reaches a (s.systemCall caller name call inner outcome).2 := by
  unfold Session.systemCall
  refine h.onStatement name _
    (fun e => .systemCall caller call fun _ => ((Executor.driverCall inner outcome e).1, ()))
    (fun e => rfl) (fun e => ?_) (fun e => rfl) (fun e => rfl)
  simp only [Application.perform, Application.settle, h.tap]
  exact (s.tap.statement_answer caller call (some .system) _ rfl).2

/-- Other statements put aside are put aside under the one name. -/
theorem pending_setPending (h : Plays place s a) (name : String) (batch : List String) :
    (a.setPending name batch).pending = Function.update s.pending name batch := by
  rw [← h.pending]
  funext other
  rw [Function.update_apply]
  rfl

/-- Other statements are put aside under a name. -/
theorem setPending (h : Plays place s a) {name : String} {statement : Statement}
    (hstatement : s.statements.get? name = some statement) (batch : List String) :
    Plays place (s.setPending name batch) (a.setPending name batch) := by
  unfold Session.setPending
  rw [hstatement]
  refine ⟨h.tap, ?_, h.placed⟩
  refine Eq.trans ?_ (pending_insert rfl).symm
  exact h.pending_setPending name batch

theorem addBatch (h : Plays place s a) (name sql : String) : Reaches a (s.addBatch name sql) := by
  unfold Session.addBatch
  cases hstatement : s.statements.get? name with
  | none =>
    rw [Session.setPending, hstatement]
    exact h.reaches
  | some statement =>
    have hplays : Plays place (s.setPending name (s.pending name ++ [sql]))
        (a.perform (.addBatch name sql)) := by
      rw [Application.perform, h.pending]
      exact h.setPending hstatement _
    exact hplays.reaches.act rfl

theorem clearBatch (h : Plays place s a) (name : String) : Reaches a (s.setPending name []) := by
  cases hstatement : s.statements.get? name with
  | none =>
    rw [Session.setPending, hstatement]
    exact h.reaches
  | some statement =>
    have hplays : Plays place (s.setPending name []) (a.perform (.clearBatch name)) :=
      h.setPending hstatement []
    exact hplays.reaches.act rfl

theorem executePending (h : Plays place s a) (caller : Caller) (name : String) :
    Reaches a (s.executePending caller name).2 := by
  unfold Session.executePending
  cases hstatement : s.statements.get? name with
  | none =>
    have hsame : s.setPending name [] = s := by rw [Session.setPending, hstatement]
    rw [hsame]
    exact h.executeBatch caller name _
  | some statement =>
    have hcleared := h.setPending hstatement []
    have hnow : (s.setPending name []).statements.get? name =
        some { statement with pending := [] } := by
      rw [Session.setPending, hstatement]
      exact Table.get?_insert_self _ _ _
    have htap : (s.setPending name []).tap = s.tap := hcleared.tap.symm.trans h.tap
    have hplays : Plays place ((s.setPending name []).executeBatch caller name (s.pending name)).2
        (a.perform (.executePending (ε := SqlError) caller name
          fun batch _ => ((Executor.executeBatch batch statement.executor).1, ()))) := by
      refine hcleared.call hnow _ ?_ rfl rfl
      simp only [Application.perform, Application.settle, h.tap, h.pending, htap]
      exact (s.tap.statement_answer caller (Batch.describe (s.pending name)) none _ rfl).2
    exact hplays.reaches.act rfl

theorem wrap (h : Plays place s a) (name : String) (executor : Executor) :
    Reaches a (s.wrap name executor) := by
  have hplays : Plays place (s.wrap name executor) (a.perform (.clearBatch name)) := by
    refine ⟨h.tap, Eq.trans ?_ (pending_insert rfl).symm, h.placed⟩
    exact h.pending_setPending name []
  exact hplays.reaches.act rfl

theorem unwrap (h : Plays place s a) (name : String) : Reaches a (s.unwrap name) := by
  have hplays : Plays place (s.unwrap name) (a.perform (.clearBatch name)) :=
    ⟨h.tap, (h.pending_setPending name []).trans (pending_erase rfl).symm, h.placed⟩
  exact hplays.reaches.act rfl

theorem openDataSource (h : Plays place s a) (caller : Caller) (source name : String) :
    Reaches a (s.openDataSource caller source name).2 := by
  unfold Session.openDataSource
  cases hsource : s.sources.get? source with
  | none => exact h.reaches
  | some d =>
    obtain ⟨hanswer, htap⟩ := s.tap.openDataSource_answer caller d.url d.user
      (f := DataSource.connect) (x := d) (g := fun _ : Unit => ((DataSource.connect d).1, ()))
      (y := ()) rfl
    have hplays : Plays place
        { s with
          tap := (s.tap.openDataSource caller d.url d.user DataSource.connect d).2.2
          sources := s.sources.insert source
            (s.tap.openDataSource caller d.url d.user DataSource.connect d).2.1 }
        (a.perform
          (.openDataSource caller d.url d.user fun _ => ((DataSource.connect d).1, ()))) := by
      refine ⟨?_, h.pending, h.placed⟩
      simp only [Application.perform, Application.settle, h.tap]
      exact htap.symm
    cases hresult : (s.tap.openDataSource caller d.url d.user DataSource.connect d).1 with
    | ok executor =>
      simp only [hresult]
      exact (hplays.wrap name executor).act rfl
    | error e =>
      simp only [hresult]
      exact hplays.reaches.act rfl

/-- To close the packet of a name is to close that of its place. -/
theorem closed (h : Plays place s a) {name : String} {id : ConnectionId}
    (hid : s.ids name = some id) :
    Plays place (s.closeTraffic name) (a.closeTraffic (place name)) := by
  obtain ⟨stream, hstream, rfl⟩ := Option.map_eq_some_iff.1 hid
  simp only [Session.closeTraffic, hstream, Application.closeTraffic, h.live? hid]
  exact ⟨congrArg (Tap.closeTraffic · stream.id) h.tap, h.pending, h.placed⟩

theorem closeTraffic (h : Plays place s a) (name : String) : Reaches a (s.closeTraffic name) := by
  cases hid : s.ids name with
  | none =>
    rw [Session.closeTraffic, Option.map_eq_none_iff.1 hid]
    exact h.reaches
  | some id =>
    have hplays : Plays place (s.closeTraffic name) (a.perform (.closeTraffic (place name))) :=
      h.closed hid
    exact hplays.reaches.act rfl

theorem dropStream (h : Plays place s a) (name : String) : Reaches a (s.dropStream name) := by
  have hstreams : (s.closeTraffic name).streams = s.streams := by
    unfold Session.closeTraffic
    split <;> rfl
  have hids : (s.dropStream name).ids = Function.update s.ids name none :=
    ids_erase (congrArg (Table.erase · name) hstreams)
  cases hid : s.ids name with
  | none =>
    have hsame : s.closeTraffic name = s := by
      rw [Session.closeTraffic, Option.map_eq_none_iff.1 hid]
    have hplays : Plays place (s.dropStream name) a := by
      refine ⟨?_, ?_, ?_⟩
      · rw [h.tap, Session.dropStream, hsame]
      · rw [h.pending, Session.dropStream, hsame]
        rfl
      · rw [hids]
        exact h.placed.forget name
    exact hplays.reaches
  | some id =>
    have hclosed := h.closed hid
    have hplays : Plays place (s.dropStream name) (a.perform (.drop (place name))) := by
      refine ⟨hclosed.tap, hclosed.pending, ?_⟩
      rw [hids]
      refine (h.placed.forget name).drop fun other hother heq => ?_
      by_cases hname : other = name
      · rw [hname, Function.update_self] at hother
        cases hother
      · rw [Function.update_of_ne hname] at hother
        exact hname (h.placed.apart name other (by rw [hid]; rfl) hother heq).symm
    exact hplays.reaches.act rfl

/-- A stream is opened under a name, which a stream may have had. -/
theorem opened (h : Plays place s a) (name : String) (stream : Stream) :
    Plays (Function.update place name a.streams.length)
      { s with streams := s.streams.insert name stream }
      { a with streams := a.streams ++ [{ id := stream.id }] } := by
  refine ⟨h.tap, h.pending, ?_⟩
  rw [ids_insert rfl]
  refine (h.placed.append _).give List.getElem?_concat_length fun other hother => ?_
  exact Nat.ne_of_lt (h.placed.lt_length hother)

/-- The stream that had the name of a new one is dropped. -/
theorem replaced (h : Plays place s a) {name : String} {old : Stream}
    (hold : s.streams.get? name = some old) (stream : Stream) :
    Plays (Function.update place name a.streams.length)
      { s with tap := s.tap.closeTraffic old.id, streams := s.streams.insert name stream }
      (Application.perform { a with streams := a.streams ++ [{ id := stream.id }] }
        (.drop (place name))) := by
  have hopened := h.opened name stream
  have hid : s.ids name = some old.id := by rw [ids, hold]; rfl
  have hlt : place name < a.streams.length := h.placed.lt_length (by rw [hid]; rfl)
  have hlive : Application.live? { a with streams := a.streams ++ [{ id := stream.id }] }
      (place name) = some old.id := by
    rw [Application.live?, List.getElem?_append_left hlt]
    exact h.live? hid
  simp only [Application.perform, Application.closeTraffic, hlive]
  refine ⟨congrArg (Tap.closeTraffic · old.id) h.tap, h.pending, ?_⟩
  refine hopened.placed.drop fun other hother heq => ?_
  by_cases hname : other = name
  · rw [hname, Function.update_self] at heq
    exact absurd heq (Nat.ne_of_lt hlt)
  · rw [ids_insert rfl, Function.update_of_ne hname] at hother
    rw [Function.update_of_ne hname] at heq
    exact hname (h.placed.apart name other (by rw [hid]; rfl) hother heq).symm

theorem connect (h : Plays place s a) (caller : Caller) (name : String) (address : Address) :
    Reaches a (s.connect caller name address).2 := by
  obtain ⟨hanswer, htap⟩ := s.tap.connect_answer caller address
    (f := Network.connect address) (x := s.network)
    (g := fun _ : Unit => ((Network.connect address s.network).1, ())) (y := ()) rfl
  have hplays : Plays place
      { s with
        tap := (s.tap.connect caller address (Network.connect address) s.network).2.2
        network := (s.tap.connect caller address (Network.connect address) s.network).2.1 }
      { a with
        tap := (s.tap.connect caller address (Network.connect address) s.network).2.2
        outside := () } := ⟨rfl, h.pending, h.placed⟩
  have hperform : Reaches (a.perform (.connect caller address
      fun _ => ((Network.connect address s.network).1, ()))) (s.connect caller name address).2 := by
    unfold Session.connect
    simp only [Application.perform, Application.settle, h.tap, ← hanswer, ← htap]
    cases hresult : (s.tap.connect caller address (Network.connect address) s.network).1 with
    | error e => exact hplays.reaches
    | ok opened =>
      obtain ⟨id, remote⟩ := opened
      cases hold : s.streams.get? name with
      | none => exact (hplays.opened name ⟨id, remote⟩).reaches
      | some old => exact (hplays.replaced hold ⟨id, remote⟩).reaches.act rfl
  exact hperform.act rfl

theorem write (h : Plays place s a) (caller : Caller) (name : String) (bytes : List UInt8) :
    Reaches a (s.write caller name bytes).2 := by
  cases hstream : s.streams.get? name with
  | none =>
    rw [Session.write, hstream]
    exact h.reaches
  | some stream =>
    have hid : s.ids name = some stream.id := by rw [ids, hstream]; rfl
    have htap := (s.tap.transfer_answer caller stream.id .sent (fun taken => bytes.take taken)
      (f := Network.write stream.remote bytes) (x := s.network)
      (g := fun _ : Unit => ((Network.write stream.remote bytes s.network).1, ())) (y := ())
      rfl).2
    have hplays : Plays place (s.write caller name bytes).2
        (a.perform (.send caller (place name) bytes
          fun _ => ((Network.write stream.remote bytes s.network).1, ()))) := by
      simp only [Session.write, hstream, Application.perform, h.live? hid]
      refine ⟨?_, h.pending, h.placed⟩
      simp only [Application.settle, h.tap]
      exact htap.symm
    exact hplays.reaches.act rfl

theorem read (h : Plays place s a) (caller : Caller) (name : String) (count : Nat) :
    Reaches a (s.read caller name count).2 := by
  cases hstream : s.streams.get? name with
  | none =>
    rw [Session.read, hstream]
    exact h.reaches
  | some stream =>
    have hid : s.ids name = some stream.id := by rw [ids, hstream]; rfl
    have htap := (s.tap.transfer_answer caller stream.id .received (fun bytes => bytes)
      (f := Remote.read count) (x := stream.remote)
      (g := fun _ : Unit => ((Remote.read count stream.remote).1, ())) (y := ()) rfl).2
    have hplays : Plays place (s.read caller name count).2
        (a.perform (.receive caller (place name)
          fun _ => ((Remote.read count stream.remote).1, ()))) := by
      simp only [Session.read, hstream, Application.perform, h.live? hid]
      refine ⟨?_, h.pending, ?_⟩
      · simp only [Application.settle, h.tap]
        exact htap.symm
      · -- the name keeps its stream, of which only the far end has moved on
        rw [ids_insert rfl]
        show Placed place (Function.update s.ids name (some stream.id)) a.streams
        rw [← hid, Function.update_eq_self]
        exact h.placed
    exact hplays.reaches.act rfl

theorem flush (h : Plays place s a) (name : String) : Reaches a (s.flush name).2 := by
  cases hstream : s.streams.get? name with
  | none =>
    rw [Session.flush, hstream]
    exact h.reaches
  | some stream =>
    have hid : s.ids name = some stream.id := by rw [ids, hstream]; rfl
    have hids : (s.flush name).2.ids = Function.update s.ids name (some stream.id) := by
      simp only [Session.flush, hstream]
      exact ids_insert rfl
    have hplays : Plays place (s.flush name).2 a := by
      refine ⟨?_, ?_, ?_⟩
      · rw [h.tap, Session.flush, hstream]
        rfl
      · rw [h.pending, Session.flush, hstream]
        rfl
      · rw [hids, ← hid, Function.update_eq_self]
        exact h.placed
    exact hplays.reaches

theorem policy (h : Plays place s a) (change : Book → Book) :
    Reaches a { s with tap := { s.tap with book := change s.tap.book } } := by
  have hplays : Plays place { s with tap := { s.tap with book := change s.tap.book } }
      (a.perform (.policy change)) :=
    ⟨by rw [Application.perform, h.tap], h.pending, h.placed⟩
  exact hplays.reaches.act rfl

theorem clock (h : Plays place s a) (change : Clock → Clock) :
    Reaches a { s with tap := { s.tap with clock := change s.tap.clock } } := by
  have hplays : Plays place { s with tap := { s.tap with clock := change s.tap.clock } }
      (a.perform (.clock change)) :=
    ⟨by rw [Application.perform, h.tap], h.pending, h.placed⟩
  exact hplays.reaches.act rfl

/-- **A step.**  Whatever a session does, the application that it plays can follow. -/
theorem moves (h : Plays place s a) {s' : Session} (hmove : s.Moves s') : Reaches a s' := by
  cases hmove with
  | connect caller name address => exact h.connect caller name address
  | write caller name bytes => exact h.write caller name bytes
  | read caller name count => exact h.read caller name count
  | flush name => exact h.flush name
  | closeTraffic name => exact h.closeTraffic name
  | dropStream name => exact h.dropStream name
  | wrap name executor => exact h.wrap name executor
  | unwrap name => exact h.unwrap name
  | query caller name sql => exact h.query caller name sql
  | execute caller name sql => exact h.execute caller name sql
  | executeBatch caller name batch => exact h.executeBatch caller name batch
  | executeBeside name sql => exact h.executeBeside name sql
  | systemCall caller name call inner outcome => exact h.systemCall caller name call inner outcome
  | addBatch name sql => exact h.addBatch name sql
  | clearBatch name => exact h.clearBatch name
  | executePending caller name => exact h.executePending caller name
  | openDataSource caller source name => exact h.openDataSource caller source name
  | policy change => exact h.policy change
  | clock change => exact h.clock change
  | aside network sources => exact Plays.reaches ⟨h.tap, h.pending, h.placed⟩

/-- **A run.**  What a session does step after step is a run of the application that it plays, in
which the ledger is not cleared. -/
theorem runs (h : Plays place s a) {s' : Session} (hruns : s.Runs s') : Reaches a s' := by
  induction hruns with
  | refl => exact h.reaches
  | tail _ hmove ih =>
    obtain ⟨actions, there, hclear, hplays⟩ := ih
    obtain ⟨more, place', hmore, hplays'⟩ := hplays.moves hmove
    refine ⟨actions ++ more, place', ?_, ?_⟩
    · intro hmem
      rcases List.mem_append.1 hmem with hmem | hmem
      · exact hclear hmem
      · exact hmore hmem
    · rw [Application.run_append]
      exact hplays'

/-- Where the ledger of a session is cleared, the application clears it as well. -/
theorem cleared (h : Plays place s a) :
    Plays place { s with tap := { s.tap with ledger := s.tap.ledger.clear } }
      (a.perform .clear) :=
  ⟨by rw [Application.perform, h.tap], h.pending, h.placed⟩

end Plays

/-- A session that has opened nothing plays an application that has opened nothing. -/
theorem plays_new (tap : Tap) (network : Network) (sources : Table String DataSource) :
    Plays (fun _ => 0) { tap := tap, network := network, sources := sources }
      { tap := tap, outside := () } := by
  refine ⟨rfl, rfl, fun name id hid => ?_, fun name other hname => ?_⟩
  · cases hid
  · cases hname

/-- A session **is played** from a tap if some run of the application with that tap, which has opened
nothing, comes to what the session is. -/
def Played (tap : Tap) (s : Session) : Prop :=
  ∃ (actions : List (Action Unit)) (place : String → Nat),
    Plays place s (Application.run { tap := tap, outside := () } actions)

/-- What a session does step after step is played as well. -/
theorem Played.runs {tap : Tap} {s s' : Session} (h : Played tap s) (hruns : s.Runs s') :
    Played tap s' := by
  obtain ⟨actions, place, hplays⟩ := h
  obtain ⟨more, place', -, hplays'⟩ := hplays.runs hruns
  refine ⟨actions ++ more, place', ?_⟩
  rw [Application.run_append]
  exact hplays'

theorem Played.cleared {tap : Tap} {s : Session} (h : Played tap s) :
    Played tap { s with tap := { s.tap with ledger := s.tap.ledger.clear } } := by
  obtain ⟨actions, place, hplays⟩ := h
  refine ⟨actions ++ [.clear], place, ?_⟩
  rw [Application.run_append]
  exact hplays.cleared

/-- What a session can come to whose tap was this one when nothing had been opened at it. -/
inductive Lives (tap : Tap) : Session → Prop where
  | begins (network : Network) (sources : Table String DataSource) :
      Lives tap { tap := tap, network := network, sources := sources }
  | moves {s s' : Session} : Lives tap s → s.Moves s' → Lives tap s'
  | writesAll {s : Session} (caller : Caller) (name : String) (bytes : List UInt8) :
      Lives tap s → Lives tap (s.writeAll caller name bytes).2
  | readsToEnd {s : Session} (caller : Caller) (name : String) :
      Lives tap s → Lives tap (s.readToEnd caller name).2
  | clears {s : Session} :
      Lives tap s → Lives tap { s with tap := { s.tap with ledger := s.tap.ledger.clear } }

namespace Lives

variable {tap : Tap} {s : Session}

/-- **Every session is an application.** -/
theorem plays (h : Lives tap s) : Played tap s := by
  induction h with
  | begins network sources => exact ⟨[], _, plays_new tap network sources⟩
  | moves _ hmove ih => exact ih.runs (.single hmove)
  | writesAll caller name bytes _ ih => exact ih.runs (runs_writeAll _ caller name bytes)
  | readsToEnd caller name _ ih => exact ih.runs (runs_readToEnd _ caller name)
  | clears _ ih => exact ih.cleared

/-- What a session has recorded is what was recorded before it, and after that what the happenings
of a run make of it. -/
theorem ledger (h : Lives tap s) : ∃ happenings,
    s.tap.ledger.content = tap.ledger.content.noteAll tap.settings happenings := by
  obtain ⟨actions, place, hplays⟩ := h.plays
  refine ⟨Application.happenings { tap := tap, outside := () } actions, ?_⟩
  rw [← hplays.tap]
  exact Application.run_ledger _ actions

end Lives

end Session

end Wiretap
