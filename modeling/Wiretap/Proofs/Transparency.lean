import Wiretap.Session
import Wiretap.Proofs.Policy.Enforcement
/-!
# A tap cannot be seen from either side

As long as the policy refuses nothing, whoever calls through a tap gets the answers that the outside
gives, and the outside is left as the same calls without a tap leave it.  Whatever the tap does
beside that, counting, noting, sharing texts, cutting packets and sleeping, shows on neither side.

The comparison is between two machines that are given the same calls: one with the tap, and one that
has forgotten it.  It is made twice.

* `Tapped` and `Untapped` have any outside at all, so every way in which a delegate may answer or
  fail is among them.  The statements put aside for a batch are the only thing that a wrapper
  remembers, and the machine without a tap keeps them as well.
* `Session` and `Outside` have the simulated outside, with streams, statements and data sources
  known by names.

`noneRefused` says that the policy lets every call of a run through, `calls_eq_of_simulates` carries
what holds of one call to a run, and `instrumentation_is_transparent` is the main statement.
-/

namespace Wiretap

open Simulated

/-! ## Runs of calls -/

/-- What a call comes back with. -/
inductive Answer : Type 1 where
  /-- There is nothing to answer. -/
  | nothing
  | outcome {ε α : Type} (result : Except ε α)

/-- The answer of a call on something that may not be there. -/
def Answer.ofOption {ε α : Type} : Option (Except ε α) → Answer
  | none => .nothing
  | some result => .outcome result

section Runs

variable {S T : Type} {C : Type 1}

/-- The answers of calls one after another, and the state after them. -/
def calls (step : S → C → Answer × S) (s : S) : List C → List Answer × S
  | [] => ([], s)
  | c :: rest =>
    let (answer, s) := step s c
    let (answers, s) := calls step s rest
    (answer :: answers, s)

/-- No call of a run is refused by the state that it is made in. -/
def noneRefused (step : S → C → Answer × S) (refuses : S → C → Bool) (s : S) : List C → Bool
  | [] => true
  | c :: rest => !refuses s c && noneRefused step refuses (step s c).2 rest

/-- A machine that answers each call that is not refused as another does, as far as the other can be
seen, answers a whole run like it. -/
theorem calls_eq_of_simulates {step : S → C → Answer × S} {bare : T → C → Answer × T}
    {refuses : S → C → Bool} (view : S → T)
    (hstep : ∀ s c, refuses s c = false → bare (view s) c = ((step s c).1, view (step s c).2))
    {s : S} {cs : List C} (h : noneRefused step refuses s cs = true) :
    calls bare (view s) cs = ((calls step s cs).1, view (calls step s cs).2) := by
  induction cs generalizing s with
  | nil => rfl
  | cons c rest ih =>
    obtain ⟨hfirst, hrest⟩ := Bool.and_eq_true_iff.1 h
    have hadmitted : refuses s c = false := by
      rw [Bool.not_eq_true'] at hfirst
      exact hfirst
    simp only [calls, hstep s c hadmitted, ih hrest]

end Runs

/-- A connect that is let through is the outside's, but for the identity that comes with it. -/
theorem Tap.connect_handsOn {σ ε α : Type} {t : Tap} {address : Address}
    (h : ¬ (t.book.resolveSocket address.host address.port).1.isRefused = true) (caller : Caller)
    (outside : σ → Except ε α × σ) (state : σ) :
    (t.connect caller address outside state).1.map (fun opened => opened.2) =
        (outside state).1.mapError .failed ∧
      (t.connect caller address outside state).2.1 = (outside state).2 := by
  rw [Tap.connect_eq_of_admitted h]
  refine ⟨?_, rfl⟩
  cases (outside state).1 with
  | ok opened => rfl
  | error e => rfl

/-! ## Any outside -/

/-- The outside, and the statements that each wrapper has put aside for a batch. -/
structure Untapped (σ : Type) where
  outside : σ
  pending : String → List String := fun _ => []

/-- The same behind a tap. -/
structure Tapped (σ : Type) extends Untapped σ where
  tap : Tap

/-- A call on a wrapper, with what the delegate makes of it. -/
inductive Call (σ : Type) : Type 1 where
  | connect {ε α : Type} (caller : Caller) (address : Address) (outside : σ → Except ε α × σ)
  | read {ε : Type} (caller : Caller) (id : ConnectionId)
      (outside : σ → Except ε (List UInt8) × σ)
  | write {ε : Type} (caller : Caller) (id : ConnectionId) (bytes : List UInt8)
      (outside : σ → Except ε Nat × σ)
  | flush {ε : Type} (outside : σ → Except ε Unit × σ)
  | query {ε ρ : Type} (caller : Caller) (sql : String) (outside : σ → Except ε (List ρ) × σ)
  | execute {ε : Type} (caller : Caller) (sql : String) (outside : σ → Except ε UInt64 × σ)
  | executeBatch {ε : Type} (caller : Caller) (batch : List String)
      (outside : List String → σ → Except ε (List UInt64) × σ)
  | addBatch (name sql : String)
  | clearBatch (name : String)
  | executePending {ε : Type} (caller : Caller) (name : String)
      (outside : List String → σ → Except ε (List UInt64) × σ)
  | systemCall {ε α : Type} (caller : Caller) (name : String) (outside : σ → Except ε α × σ)
  | openDataSource {ε α : Type} (caller : Caller) (url : String) (user : Option String)
      (outside : σ → Except ε α × σ)
  /-- The tap is changed between calls: its settings, its policy, its ledger or its clock. -/
  | retune (change : Tap → Tap)

namespace Untapped

variable {σ : Type}

/-- The outside is asked, and its answer is handed on. -/
def ask {ε α : Type} (u : Untapped σ) (outside : σ → Except ε α × σ) : Answer × Untapped σ :=
  (.outcome (outside u.outside).1, { u with outside := (outside u.outside).2 })

/-- The outside is asked where a policy might have stood before it. -/
def askAdmitted {ε α : Type} (u : Untapped σ) (outside : σ → Except ε α × σ) :
    Answer × Untapped σ :=
  (.outcome ((outside u.outside).1.mapError Denial.failed),
    { u with outside := (outside u.outside).2 })

/-- Other statements are put aside by a wrapper. -/
def setPending (u : Untapped σ) (name : String) (batch : List String) : Untapped σ :=
  { u with pending := Function.update u.pending name batch }

/-- A call without a tap.  The batch of the statements put aside is a batch like any other, and
they are forgotten however it ends. -/
def call (u : Untapped σ) : Call σ → Answer × Untapped σ
  | .connect _ _ outside | .read _ _ outside | .write _ _ _ outside
  | .openDataSource _ _ _ outside => u.askAdmitted outside
  | .flush outside | .query _ _ outside | .execute _ _ outside | .systemCall _ _ outside =>
    u.ask outside
  | .executeBatch _ batch outside => u.ask (outside batch)
  | .addBatch name sql => (.nothing, u.setPending name (u.pending name ++ [sql]))
  | .clearBatch name => (.nothing, u.setPending name [])
  | .executePending _ name outside => (u.setPending name []).ask (outside (u.pending name))
  | .retune _ => (.nothing, u)

end Untapped

namespace Tapped

variable {σ : Type}

/-- What a call on the tap makes of the machine. -/
def settle {ε α : Type} (t : Tapped σ) (result : Except ε α × σ × Tap) : Answer × Tapped σ :=
  (.outcome result.1, { t with outside := result.2.1, tap := result.2.2 })

/-- Other statements are put aside by a wrapper. -/
def setPending (t : Tapped σ) (name : String) (batch : List String) : Tapped σ :=
  { t with pending := Function.update t.pending name batch }

/-- A call through the tap.  The identity that the tap gives to a connection is part of the wrapper
and no part of the answer. -/
def call (t : Tapped σ) : Call σ → Answer × Tapped σ
  | .connect caller address outside =>
    let result := t.tap.connect caller address outside t.outside
    t.settle (result.1.map fun opened => opened.2, result.2)
  | .read caller id outside => t.settle (t.tap.receive caller id outside t.outside)
  | .write caller id bytes outside => t.settle (t.tap.send caller id bytes outside t.outside)
  | .flush outside => t.settle (t.tap.flush outside t.outside)
  | .query caller sql outside => t.settle (t.tap.query caller sql outside t.outside)
  | .execute caller sql outside => t.settle (t.tap.execute caller sql outside t.outside)
  | .executeBatch caller batch outside =>
    t.settle (t.tap.executeBatch caller batch (outside batch) t.outside)
  | .addBatch name sql => (.nothing, t.setPending name (t.pending name ++ [sql]))
  | .clearBatch name => (.nothing, t.setPending name [])
  | .executePending caller name outside =>
    let batch := t.pending name
    (t.setPending name []).settle (t.tap.executeBatch caller batch (outside batch) t.outside)
  | .systemCall caller name outside => t.settle (t.tap.systemCall caller name outside t.outside)
  | .openDataSource caller url user outside =>
    t.settle (t.tap.openDataSource caller url user outside t.outside)
  | .retune change => (.nothing, { t with tap := change t.tap })

/-- Whether the policy refuses a call.  It is asked by four kinds of call. -/
def refuses (t : Tapped σ) : Call σ → Bool
  | .connect _ address _ => (t.tap.book.resolveSocket address.host address.port).1.isRefused
  | .read _ id _ | .write _ id _ _ =>
    (t.tap.book.resolveSocket id.address.host id.address.port).1.isRefused
  | .openDataSource _ url user _ => (t.tap.book.resolveDataSource url user).1.isRefused
  | _ => false

/-- A result that is the outside's is settled as without the tap. -/
theorem settle_untapped {ε α : Type} {t : Tapped σ} {outside : σ → Except ε α × σ}
    {result : Except (Denial ε) α × σ × Tap}
    (hanswer : result.1 = (outside t.outside).1.mapError .failed)
    (hstate : result.2.1 = (outside t.outside).2) :
    t.toUntapped.askAdmitted outside = ((t.settle result).1, (t.settle result).2.toUntapped) := by
  simp only [Untapped.askAdmitted, settle, hanswer, hstate]

/-- **One call.**  A call that is not refused is answered as without the tap, and leaves the
outside, and the statements put aside, as without it. -/
theorem call_untapped (t : Tapped σ) (c : Call σ) (h : t.refuses c = false) :
    t.toUntapped.call c = ((t.call c).1, (t.call c).2.toUntapped) := by
  cases c with
  | connect caller address outside =>
    obtain ⟨hanswer, hstate⟩ := Tap.connect_handsOn (ne_true_of_eq_false h) caller outside t.outside
    exact settle_untapped hanswer hstate
  | read caller id outside =>
    obtain ⟨hanswer, hstate⟩ := Tap.transfer_of_admitted (ne_true_of_eq_false h) caller .received
      (fun bytes => bytes) outside t.outside
    exact settle_untapped hanswer hstate
  | write caller id bytes outside =>
    obtain ⟨hanswer, hstate⟩ := Tap.transfer_of_admitted (ne_true_of_eq_false h) caller .sent
      (fun taken => bytes.take taken) outside t.outside
    exact settle_untapped hanswer hstate
  | openDataSource caller url user outside =>
    obtain ⟨hanswer, hstate⟩ :=
      Tap.openDataSource_of_admitted (ne_true_of_eq_false h) caller outside t.outside
    exact settle_untapped hanswer hstate
  -- the other calls do not ask the policy, and the tap computes what the outside does
  | flush outside => rfl
  | query caller sql outside => rfl
  | execute caller sql outside => rfl
  | executeBatch caller batch outside => rfl
  | addBatch name sql => rfl
  | clearBatch name => rfl
  | executePending caller name outside => rfl
  | systemCall caller name outside => rfl
  | retune change => rfl

end Tapped

/-! ## The simulated outside -/

/-- The simulated outside with no tap before it: the network, and by name the far ends of the
streams, the statements and the data sources. -/
structure Outside where
  network : Network
  remotes : String → Option Remote
  statements : String → Option Session.Statement
  sources : String → Option DataSource

/-- A call on a session. -/
inductive Request : Type 1 where
  | connect (caller : Caller) (name : String) (address : Address)
  | read (caller : Caller) (name : String) (count : Nat)
  | write (caller : Caller) (name : String) (bytes : List UInt8)
  | flush (name : String)
  | closeTraffic (name : String)
  | dropStream (name : String)
  | wrap (name : String) (executor : Executor)
  | query (caller : Caller) (name sql : String)
  | execute (caller : Caller) (name sql : String)
  | executeBatch (caller : Caller) (name : String) (batch : List String)
  | addBatch (name sql : String)
  | clearBatch (name : String)
  | executePending (caller : Caller) (name : String)
  | systemCall {α : Type} (caller : Caller) (name call : String) (inner : Option String)
      (outcome : Except String α)
  | openDataSource (caller : Caller) (source name : String)
  /-- The tap is changed between calls. -/
  | retune (change : Tap → Tap)

namespace Outside

/-- Asks the executor of a statement. -/
def onStatement {ε α : Type} (o : Outside) (name : String)
    (run : Executor → Except ε α × Executor) : Answer × Outside :=
  match o.statements name with
  | none => (.nothing, o)
  | some statement =>
    let (result, executor) := run statement.executor
    (.outcome result,
      { o with
        statements :=
          Function.update o.statements name (some { statement with executor := executor }) })

/-- The statements put aside for a batch. -/
def pending (o : Outside) (name : String) : List String :=
  ((o.statements name).map fun statement => statement.pending).getD []

/-- Puts other statements aside for a batch. -/
def setPending (o : Outside) (name : String) (pending : List String) : Outside :=
  match o.statements name with
  | none => o
  | some statement =>
    { o with
      statements :=
        Function.update o.statements name (some { statement with pending := pending }) }

/-- A call without a tap. -/
def call (o : Outside) : Request → Answer × Outside
  | .connect _ name address =>
    match Network.connect address o.network with
    | (.ok remote, network) =>
      (.outcome (.ok () : Except (Denial Unreachable) Unit),
        { o with network := network, remotes := Function.update o.remotes name (some remote) })
    | (.error e, network) =>
      (.outcome (.error (.failed e) : Except (Denial Unreachable) Unit),
        { o with network := network })
  | .read _ name count =>
    match o.remotes name with
    | none => (.nothing, o)
    | some remote =>
      let (result, remote) := Remote.read count remote
      (.outcome (result.mapError Denial.failed),
        { o with remotes := Function.update o.remotes name (some remote) })
  | .write _ name bytes =>
    match o.remotes name with
    | none => (.nothing, o)
    | some remote =>
      let (result, network) := Network.write remote bytes o.network
      (.outcome (result.mapError Denial.failed), { o with network := network })
  | .flush name =>
    match o.remotes name with
    | none => (.nothing, o)
    | some remote =>
      let (result, remote) := Remote.flush remote
      (.outcome result, { o with remotes := Function.update o.remotes name (some remote) })
  | .closeTraffic _ => (.nothing, o)
  | .dropStream name => (.nothing, { o with remotes := Function.update o.remotes name none })
  | .wrap name executor =>
    (.nothing, { o with statements := Function.update o.statements name (some { executor }) })
  | .query _ name sql => o.onStatement name (Executor.query sql)
  | .execute _ name sql => o.onStatement name (Executor.execute sql)
  | .executeBatch _ name batch => o.onStatement name (Executor.executeBatch batch)
  | .addBatch name sql => (.nothing, o.setPending name (o.pending name ++ [sql]))
  | .clearBatch name => (.nothing, o.setPending name [])
  | .executePending _ name =>
    (o.setPending name []).onStatement name (Executor.executeBatch (o.pending name))
  | .systemCall _ name _ inner outcome => o.onStatement name (Executor.driverCall inner outcome)
  | .openDataSource _ source name =>
    match o.sources source with
    | none => (.nothing, o)
    | some d =>
      let (result, d) := DataSource.connect d
      let o := { o with sources := Function.update o.sources source (some d) }
      match result with
      | .ok executor =>
        (.outcome (.ok () : Except (Denial SqlError) Unit),
          { o with statements := Function.update o.statements name (some { executor }) })
      | .error e => (.outcome (.error (.failed e) : Except (Denial SqlError) Unit), o)
  | .retune _ => (.nothing, o)

end Outside

namespace Session

/-- A session as its outside sees it. -/
def untapped (s : Session) : Outside where
  network := s.network
  remotes name := (s.streams.get? name).map Stream.remote
  statements := s.statements.get?
  sources := s.sources.get?

/-- A call through the tap of a session. -/
def call (s : Session) : Request → Answer × Session
  | .connect caller name address =>
    let (result, s) := s.connect caller name address
    (.outcome (result.map fun _ => ()), s)
  | .read caller name count =>
    let (result, s) := s.read caller name count
    (.ofOption result, s)
  | .write caller name bytes =>
    let (result, s) := s.write caller name bytes
    (.ofOption result, s)
  | .flush name =>
    let (result, s) := s.flush name
    (.ofOption result, s)
  | .closeTraffic name => (.nothing, s.closeTraffic name)
  | .dropStream name => (.nothing, s.dropStream name)
  | .wrap name executor => (.nothing, s.wrap name executor)
  | .query caller name sql =>
    let (result, s) := s.query caller name sql
    (.ofOption result, s)
  | .execute caller name sql =>
    let (result, s) := s.execute caller name sql
    (.ofOption result, s)
  | .executeBatch caller name batch =>
    let (result, s) := s.executeBatch caller name batch
    (.ofOption result, s)
  | .addBatch name sql => (.nothing, s.addBatch name sql)
  | .clearBatch name => (.nothing, s.setPending name [])
  | .executePending caller name =>
    let (result, s) := s.executePending caller name
    (.ofOption result, s)
  | .systemCall caller name call inner outcome =>
    let (result, s) := s.systemCall caller name call inner outcome
    (.ofOption result, s)
  | .openDataSource caller source name =>
    let (result, s) := s.openDataSource caller source name
    (.ofOption result, s)
  | .retune change => (.nothing, { s with tap := change s.tap })

/-- Whether the policy refuses the streams of an address. -/
def refusesSocket (s : Session) (address : Address) : Bool :=
  (s.tap.book.resolveSocket address.host address.port).1.isRefused

/-- Whether the policy refuses a call. -/
def refuses (s : Session) : Request → Bool
  | .connect _ _ address => s.refusesSocket address
  | .read _ name _ | .write _ name _ =>
    (s.streams.get? name).any fun stream => s.refusesSocket stream.id.address
  | .openDataSource _ source _ =>
    (s.sources.get? source).any fun d => (s.tap.book.resolveDataSource d.url d.user).1.isRefused
  | _ => false

theorem remotes_untapped (s : Session) (name : String) :
    s.untapped.remotes name = (s.streams.get? name).map Stream.remote := rfl

/-- A name that is given to a stream is given to its far end. -/
theorem untapped_insert_stream (tap : Tap) (network : Network) (streams : Table String Stream)
    (statements : Table String Statement) (sources : Table String DataSource) (name : String)
    (stream : Stream) :
    untapped ⟨tap, network, streams.insert name stream, statements, sources⟩ =
      { untapped ⟨tap, network, streams, statements, sources⟩ with
        remotes := Function.update (fun other => (streams.get? other).map Stream.remote) name
          (some stream.remote) } := by
  simp only [untapped, Table.map_get?_insert]

/-- A connect that is not refused answers as without a tap, and leaves the same outside. -/
theorem connect_untapped (s : Session) (caller : Caller) (name : String) (address : Address)
    (h : s.refuses (.connect caller name address) = false) :
    s.untapped.call (.connect caller name address) =
      ((s.call (.connect caller name address)).1,
        (s.call (.connect caller name address)).2.untapped) := by
  have hadmitted := Tap.connect_eq_of_admitted (ne_true_of_eq_false h) caller
    (Network.connect address) s.network
  have hnetwork : s.untapped.network = s.network := rfl
  simp only [Outside.call, Session.call, Session.connect, hadmitted, hnetwork]
  cases hconnect : Network.connect address s.network with
  | mk answer network =>
    cases answer with
    | error e => rfl
    | ok remote =>
      simp only [Except.map, Except.mapError, untapped_insert_stream]
      rfl

theorem read_untapped (s : Session) (caller : Caller) (name : String) (count : Nat)
    (h : s.refuses (.read caller name count) = false) :
    s.untapped.call (.read caller name count) =
      ((s.call (.read caller name count)).1, (s.call (.read caller name count)).2.untapped) := by
  simp only [Outside.call, Session.call, Session.read, remotes_untapped]
  cases hstream : s.streams.get? name with
  | none => rfl
  | some stream =>
    have hadmitted : s.refusesSocket stream.id.address = false := by
      simpa only [refuses, hstream, Option.any_some] using h
    obtain ⟨hanswer, hstate⟩ := Tap.transfer_of_admitted (ne_true_of_eq_false hadmitted) caller
      .received (fun bytes => bytes) (Remote.read count) stream.remote
    simp only [Option.map_some, Answer.ofOption, Tap.receive, hanswer, hstate,
      untapped_insert_stream]
    rfl

theorem write_untapped (s : Session) (caller : Caller) (name : String) (bytes : List UInt8)
    (h : s.refuses (.write caller name bytes) = false) :
    s.untapped.call (.write caller name bytes) =
      ((s.call (.write caller name bytes)).1, (s.call (.write caller name bytes)).2.untapped) := by
  simp only [Outside.call, Session.call, Session.write, remotes_untapped]
  cases hstream : s.streams.get? name with
  | none => rfl
  | some stream =>
    have hadmitted : s.refusesSocket stream.id.address = false := by
      simpa only [refuses, hstream, Option.any_some] using h
    obtain ⟨hanswer, hstate⟩ := Tap.transfer_of_admitted (ne_true_of_eq_false hadmitted) caller
      .sent (fun taken => bytes.take taken) (Network.write stream.remote bytes) s.network
    simp only [Option.map_some, Answer.ofOption, Tap.send, hanswer, hstate]
    rfl

/-- So does a flush, which nothing refuses. -/
theorem flush_untapped (s : Session) (name : String) :
    s.untapped.call (.flush name) =
      ((s.call (.flush name)).1, (s.call (.flush name)).2.untapped) := by
  simp only [Outside.call, Session.call, Session.flush, remotes_untapped]
  cases hstream : s.streams.get? name with
  | none => rfl
  | some stream =>
    simp only [Option.map_some, Tap.flush, untapped_insert_stream]
    rfl

theorem closeTraffic_untapped (s : Session) (name : String) :
    (s.closeTraffic name).untapped = s.untapped := by
  unfold closeTraffic
  split
  · rfl
  · rfl

/-- A stream that is dropped is dropped outside. -/
theorem dropStream_untapped (s : Session) (name : String) :
    (s.dropStream name).untapped =
      { s.untapped with remotes := Function.update s.untapped.remotes name none } := by
  rw [← s.closeTraffic_untapped name]
  have hremotes : (s.dropStream name).untapped.remotes =
      Function.update (s.closeTraffic name).untapped.remotes name none :=
    Table.map_get?_erase (s.closeTraffic name).streams name Stream.remote
  rw [← hremotes]
  rfl

theorem wrap_untapped (s : Session) (name : String) (executor : Executor) :
    (s.wrap name executor).untapped =
      { s.untapped with
        statements := Function.update s.untapped.statements name (some { executor }) } := by
  simp only [untapped, wrap, Table.get?_insert]

theorem setPending_untapped (s : Session) (name : String) (batch : List String) :
    s.untapped.setPending name batch = (s.setPending name batch).untapped := by
  simp only [Outside.setPending, setPending, untapped]
  cases s.statements.get? name with
  | none => rfl
  | some statement => simp only [Table.get?_insert]

/-- A call that the tap hands on to the executor of a statement. -/
theorem onStatement_untapped {ε α : Type} (s : Session) (name : String)
    {call : Tap → Executor → Except ε α × Executor × Tap} {run : Executor → Except ε α × Executor}
    (hcall : ∀ executor, (call s.tap executor).1 = (run executor).1 ∧
      (call s.tap executor).2.1 = (run executor).2) :
    s.untapped.onStatement name run =
      (.ofOption (s.onStatement name call).1, (s.onStatement name call).2.untapped) := by
  simp only [Outside.onStatement, onStatement, untapped]
  cases s.statements.get? name with
  | none => rfl
  | some statement =>
    obtain ⟨hanswer, hexecutor⟩ := hcall statement.executor
    simp only [Answer.ofOption, hanswer, hexecutor, Table.get?_insert]

/-- The statements put aside are run as without a tap. -/
theorem executePending_untapped (s : Session) (caller : Caller) (name : String) :
    s.untapped.call (.executePending caller name) =
      ((s.call (.executePending caller name)).1,
        (s.call (.executePending caller name)).2.untapped) := by
  have hpending : s.untapped.pending name = s.pending name := rfl
  simp only [Outside.call, Session.call, Session.executePending, Session.executeBatch, hpending,
    setPending_untapped]
  refine (s.setPending name []).onStatement_untapped name ?_
  exact fun executor => ⟨rfl, rfl⟩

/-- A data source that is not refused is opened as without a tap. -/
theorem openDataSource_untapped (s : Session) (caller : Caller) (source name : String)
    (h : s.refuses (.openDataSource caller source name) = false) :
    s.untapped.call (.openDataSource caller source name) =
      ((s.call (.openDataSource caller source name)).1,
        (s.call (.openDataSource caller source name)).2.untapped) := by
  have hsources : s.untapped.sources source = s.sources.get? source := rfl
  simp only [Outside.call, Session.call, Session.openDataSource, hsources]
  cases hsource : s.sources.get? source with
  | none => rfl
  | some d =>
    have hadmitted : (s.tap.book.resolveDataSource d.url d.user).1.isRefused = false := by
      simpa only [refuses, hsource, Option.any_some] using h
    obtain ⟨hanswer, hstate⟩ := Tap.openDataSource_of_admitted (ne_true_of_eq_false hadmitted)
      caller DataSource.connect d
    simp only [hanswer, hstate]
    cases hconnect : DataSource.connect d with
    | mk answer d' =>
      cases answer with
      | error e =>
        refine Prod.ext rfl ?_
        simp only [Except.mapError, untapped, Table.get?_insert]
      | ok executor =>
        refine Prod.ext rfl ?_
        simp only [Except.mapError, untapped, wrap, Table.get?_insert]

/-- **One call.**  A call on a session that is not refused is answered as without its tap, and
leaves the simulated outside as without it. -/
theorem call_untapped (s : Session) (r : Request) (h : s.refuses r = false) :
    s.untapped.call r = ((s.call r).1, (s.call r).2.untapped) := by
  cases r with
  | connect caller name address => exact s.connect_untapped caller name address h
  | read caller name count => exact s.read_untapped caller name count h
  | write caller name bytes => exact s.write_untapped caller name bytes h
  | flush name => exact s.flush_untapped name
  | closeTraffic name => exact Prod.ext rfl (s.closeTraffic_untapped name).symm
  | dropStream name => exact Prod.ext rfl (s.dropStream_untapped name).symm
  | wrap name executor => exact Prod.ext rfl (s.wrap_untapped name executor).symm
  | query caller name sql =>
    simp only [Outside.call, Session.call, Session.query]
    refine s.onStatement_untapped name ?_
    exact fun executor => ⟨rfl, rfl⟩
  | execute caller name sql =>
    simp only [Outside.call, Session.call, Session.execute]
    refine s.onStatement_untapped name ?_
    exact fun executor => ⟨rfl, rfl⟩
  | executeBatch caller name batch =>
    simp only [Outside.call, Session.call, Session.executeBatch]
    refine s.onStatement_untapped name ?_
    exact fun executor => ⟨rfl, rfl⟩
  | addBatch name sql => exact Prod.ext rfl (s.setPending_untapped name _)
  | clearBatch name => exact Prod.ext rfl (s.setPending_untapped name _)
  | executePending caller name => exact s.executePending_untapped caller name
  | systemCall caller name call inner outcome =>
    simp only [Outside.call, Session.call, Session.systemCall]
    refine s.onStatement_untapped name ?_
    exact fun executor => ⟨rfl, rfl⟩
  | openDataSource caller source name => exact s.openDataSource_untapped caller source name h
  | retune change => rfl

end Session

/-- **Instrumentation is transparent.**  Let calls be made through a tap, one after another, and let
the policy refuse none of them; the tap may be in any state, have any settings, and be changed
between the calls in any way.  Then all calls are answered as the same calls without a tap are, and
the outside, with the statements put aside for batches, ends as it does without a tap.  This holds
of any outside, and of sessions with the simulated one. -/
theorem instrumentation_is_transparent :
    (∀ {σ : Type} (t : Tapped σ) (cs : List (Call σ)),
      noneRefused Tapped.call Tapped.refuses t cs = true →
      calls Untapped.call t.toUntapped cs =
        ((calls Tapped.call t cs).1, (calls Tapped.call t cs).2.toUntapped)) ∧
    ∀ (s : Session) (rs : List Request), noneRefused Session.call Session.refuses s rs = true →
      calls Outside.call s.untapped rs =
        ((calls Session.call s rs).1, (calls Session.call s rs).2.untapped) := by
  constructor
  · intro σ t cs h
    exact calls_eq_of_simulates Tapped.toUntapped Tapped.call_untapped h
  · intro s rs h
    exact calls_eq_of_simulates Session.untapped Session.call_untapped h

/-- A thread of the shop. -/
def clerk : Caller := ⟨⟨1, none⟩, "shop:1"⟩

/-- Another one. -/
def packer : Caller := ⟨⟨2, none⟩, "shop:2"⟩

/-- A session that captures everything, with a slow database and a host that is down. -/
def slowShop : Session where
  tap := {
    settings := { captureTraces := true, captureTraffic := true }
    book := Book.setSocket {} (.of (some "db") none) (.throttle 5) }
  network := ({ responses := .ofList [(⟨"db", 5432⟩, [1, 2, 3])] } : Network).refuse ⟨"down", 1⟩
  sources := .ofList [("pool", { url := "jdbc:shop", template := { failing := ["bad"] } })]

/-- What is done with it: a connect that the network refuses, reads that are cut short, and a batch
that fails in its middle, after which nothing is captured any more. -/
def dayAtTheShop : List Request := [
  .connect clerk "line" ⟨"DB", 5432⟩,
  .connect clerk "line" ⟨"db", 5432⟩,
  .connect clerk "other" ⟨"down", 1⟩,
  .write clerk "line" [7, 8],
  .flush "line",
  .read packer "line" 2,
  .read clerk "line" 8,
  .openDataSource packer "pool" "st",
  .addBatch "st" "insert into t values (1)",
  .addBatch "st" "bad",
  .executePending clerk "st",
  .retune fun t => { t with settings := { monitorSql := false, monitorSockets := false } },
  .read packer "line" 1,
  .query packer "st" "bad"]

/-- The shop can be kept open for a day, in which its tap sleeps for the slow database, and all is
answered and left as without a tap.  So it is with a delegate that loses its connection. -/
theorem instrumentation_is_transparent_slowShop :
    (noneRefused Session.call Session.refuses slowShop dayAtTheShop = true ∧
      calls Outside.call slowShop.untapped dayAtTheShop =
        ((calls Session.call slowShop dayAtTheShop).1,
          (calls Session.call slowShop dayAtTheShop).2.untapped) ∧
      (calls Session.call slowShop dayAtTheShop).2.tap.sleeper.slept =
        [5000000, 5000000, 5000000, 5000000, 5000000]) ∧
    let line : Tapped Nat := { outside := 0, tap := slowShop.tap }
    let lost : List (Call Nat) := [
      .write (ε := String) clerk ⟨⟨"db", 5432⟩, 0, ⟨1, none⟩, none⟩ [1, 2, 3]
        fun n => (.ok 2, n + 1),
      .write clerk ⟨⟨"db", 5432⟩, 0, ⟨1, none⟩, none⟩ [3] fun n => (.error "reset", n + 1)]
    noneRefused Tapped.call Tapped.refuses line lost = true ∧
      calls Untapped.call line.toUntapped lost =
        ((calls Tapped.call line lost).1, (calls Tapped.call line lost).2.toUntapped) ∧
      (calls Tapped.call line lost).2.outside = 2 := by
  have hday : noneRefused Session.call Session.refuses slowShop dayAtTheShop = true := by
    decide +kernel
  refine ⟨⟨hday, instrumentation_is_transparent.2 slowShop dayAtTheShop hday, ?_⟩, ?_⟩
  · decide +kernel
  · intro line lost
    have hlost : noneRefused Tapped.call Tapped.refuses line lost = true := by decide +kernel
    exact ⟨hlost, instrumentation_is_transparent.1 line lost hlost, by decide +kernel⟩

end Wiretap
