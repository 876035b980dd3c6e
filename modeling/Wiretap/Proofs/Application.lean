import Wiretap.Tap.Socket
import Wiretap.Tap.Sql
import Wiretap.Proofs.Gains
/-!
# An application at a tap

An application holds streams and statements that a tap wraps, and uses them from any threads in
any order.  What stands behind the tap is left open: every call brings along what the outside
answers, as a function of a state of the outside.

An application **performs** actions one after another.  Beside the tap this file follows what the
application and the outside can see of a run themselves: its **happenings**, which are the calls
that reached the outside, the closings of packets, and the clearings of the ledger.  They are read
off the policy's rulings, the clock and the answers of the outside, and not off the ledger.

What a happening does to a ledger is `Ledger.note`.  The next file shows that the tap does just
that, so everything that is said about ledgers after a run can be said about happenings.  What a
session does with its simulated outside is a run of an application as well
(`Session.Plays.runs`).
-/

namespace Wiretap

/-- A stream that an application opened. -/
structure OpenedStream where
  id : ConnectionId
  dropped : Bool := false

/-- An application in use of a tap. -/
structure Application (σ : Type) where
  tap : Tap
  /-- The state of the outside. -/
  outside : σ
  /-- The streams that were opened, oldest first; a stream is named by its place. -/
  streams : List OpenedStream := []
  /-- The statements that each wrapper, which is known by a name, has put aside for a batch. -/
  pending : String → List String := fun _ => []

/-- What an application does. -/
inductive Action (σ : Type) : Type 1 where
  | query {ρ ε : Type} (caller : Caller) (sql : String) (outside : σ → Except ε (List ρ) × σ)
  | execute {ε : Type} (caller : Caller) (sql : String) (outside : σ → Except ε UInt64 × σ)
  | executeBatch {ε : Type} (caller : Caller) (batch : List String)
      (outside : List String → σ → Except ε (List UInt64) × σ)
  | addBatch (name : String) (sql : String)
  | clearBatch (name : String)
  | executePending {ε : Type} (caller : Caller) (name : String)
      (outside : List String → σ → Except ε (List UInt64) × σ)
  | systemCall {α ε : Type} (caller : Caller) (name : String) (outside : σ → Except ε α × σ)
  | openDataSource {α ε : Type} (caller : Caller) (url : String) (user : Option String)
      (outside : σ → Except ε α × σ)
  | connect {α ε : Type} (caller : Caller) (address : Address) (outside : σ → Except ε α × σ)
  | receive {ε : Type} (caller : Caller) (stream : Nat)
      (outside : σ → Except ε (List UInt8) × σ)
  | send {ε : Type} (caller : Caller) (stream : Nat) (bytes : List UInt8)
      (outside : σ → Except ε Nat × σ)
  | closeTraffic (stream : Nat)
  | drop (stream : Nat)
  /-- The policy is changed, by setting rules, merging, clearing or asking. -/
  | policy (change : Book → Book)
  /-- The clock is moved. -/
  | clock (change : Clock → Clock)
  /-- The outside changes by itself, or is used beside the tap. -/
  | aside (change : σ → σ)
  /-- The ledger is cleared. -/
  | clear

/-- Whether an action asks for a connection. -/
def Action.isConnect {σ : Type} : Action σ → Bool
  | .connect .. => true
  | _ => false

/-- Whether an action clears the ledger. -/
def Action.isClear {σ : Type} : Action σ → Bool
  | .clear => true
  | _ => false

/-- The readings of the clock before and after a call. -/
structure Timing where
  start : UInt64
  finish : UInt64

/-- How long a call took; never less than nothing. -/
def Timing.elapsed (t : Timing) : UInt64 := flooredSub t.finish t.start

/-- The call site of a caller as an identity has it. -/
def Settings.siteOf (s : Settings) (caller : Caller) : Option String :=
  if s.captureTraces then some caller.site else none

/-- A statement, or a driver call, that reached the outside. -/
structure StatementCall where
  /-- The text of the statement, of the batch, or the name of the call. -/
  text : String
  kind : StatementKind
  caller : Caller
  timing : Timing
  /-- How many rows the answer has; a failure has none. -/
  rows : Nat

namespace StatementCall

/-- The identity that a statement is accounted under. -/
def id (c : StatementCall) (s : Settings) : StatementId where
  sql := normalSql c.text
  kind := c.kind
  owner := c.caller.thread
  trace := s.siteOf c.caller

/-- What a statement adds to its counter. -/
def gain (c : StatementCall) : Gain
  | .elapsed => c.timing.elapsed.toNat
  | .rows => c.rows
  | .operations => 1
  | _ => 0

end StatementCall

/-- A connect that reached the outside. -/
structure ConnectCall where
  /-- The place of the stream that came of it; none where the outside failed. -/
  stream : Option Nat
  id : ConnectionId
  timing : Timing

/-- A read or a write that reached the outside. -/
structure TransferCall where
  stream : Nat
  /-- The identity of the stream. -/
  id : ConnectionId
  caller : Caller
  timing : Timing
  direction : Direction
  /-- The bytes that the outside moved; a failure moves none. -/
  bytes : List UInt8

namespace TransferCall

/-- What a transfer adds to the counter of its connection. -/
def gain (c : TransferCall) : Gain
  | .elapsed => c.timing.elapsed.toNat
  | .sent => if c.direction = .sent then c.bytes.length else 0
  | .received => if c.direction = .received then c.bytes.length else 0
  | .rows => 0
  | .operations => 1

/-- The bytes, each with its direction. -/
def flow (c : TransferCall) : List (Direction × UInt8) := c.bytes.map (c.direction, ·)

/-- The bytes as a chunk of the connection's traffic. -/
def chunk (c : TransferCall) (s : Settings) : Chunk where
  direction := c.direction
  bytes := c.bytes
  time := c.timing.finish
  thread := c.caller.thread
  trace := s.siteOf c.caller

end TransferCall

/-- What a connect adds to the counter of its connection. -/
def ConnectCall.gain (c : ConnectCall) : Gain
  | .elapsed => c.timing.elapsed.toNat
  | .operations => 1
  | _ => 0

/-- What can be seen of a run beside the tap. -/
inductive Happening where
  | statement (c : StatementCall)
  | connect (c : ConnectCall)
  | transfer (c : TransferCall)
  /-- The open packet of a stream was closed. -/
  | closing (stream : Nat) (id : ConnectionId)
  /-- The ledger was cleared. -/
  | cleared

/-- The ledger after a happening, but for the texts that it shares. -/
def Ledger.note (s : Settings) (l : Ledger) : Happening → Ledger
  | .statement c => if s.monitorSql then l.recordStatement (c.id s) (.ofGain c.gain) else l
  | .connect c =>
    let l := (l.nextOrdinal c.id.address).2
    if s.monitorSockets then l.recordSocket c.id (.ofGain c.gain) else l
  | .transfer c =>
    if s.monitorSockets then
      let l := l.recordSocket (Tap.identityOn c.id c.caller.thread) (.ofGain c.gain)
      if s.captureTraffic && !c.bytes.isEmpty then l.append c.id (c.chunk s) else l
    else l
  | .closing _ id => l.flush id
  | .cleared => l.clear

namespace Application

variable {σ : Type}

/-- The identity of a stream that is still in use. -/
def live? (a : Application σ) (stream : Nat) : Option ConnectionId :=
  a.streams[stream]?.bind fun s => if s.dropped then none else some s.id

/-- The application after a call: the tap and the outside are those after it. -/
def settle (a : Application σ) (result : α × σ × Tap) : Application σ :=
  { a with outside := result.2.1, tap := result.2.2 }

/-- The application with other statements put aside by a wrapper. -/
def setPending (a : Application σ) (name : String) (batch : List String) : Application σ :=
  { a with pending := fun other => if other = name then batch else a.pending other }

/-- The application with the packet of a stream closed. -/
def closeTraffic (a : Application σ) (stream : Nat) : Application σ :=
  match a.live? stream with
  | none => a
  | some id => { a with tap := a.tap.closeTraffic id }

/-- The application after an action.  What is asked of a stream that is not in use does nothing;
the statements put aside for a batch are forgotten however the batch ends; and a stream that is
dropped closes its packet. -/
def perform (a : Application σ) : Action σ → Application σ
  | .query caller sql outside => a.settle (a.tap.query caller sql outside a.outside)
  | .execute caller sql outside => a.settle (a.tap.execute caller sql outside a.outside)
  | .executeBatch caller batch outside =>
    a.settle (a.tap.executeBatch caller batch (outside batch) a.outside)
  | .addBatch name sql => a.setPending name (a.pending name ++ [sql])
  | .clearBatch name => a.setPending name []
  | .executePending caller name outside =>
    let batch := a.pending name
    (a.setPending name []).settle
      (a.tap.executeBatch caller batch (outside batch) a.outside)
  | .systemCall caller name outside => a.settle (a.tap.systemCall caller name outside a.outside)
  | .openDataSource caller url user outside =>
    a.settle (a.tap.openDataSource caller url user outside a.outside)
  | .connect caller address outside =>
    let result := a.tap.connect caller address outside a.outside
    match result.1 with
    | .ok (id, _) => { a.settle result with streams := a.streams ++ [{ id }] }
    | .error _ => a.settle result
  | .receive caller stream outside =>
    match a.live? stream with
    | none => a
    | some id => a.settle (a.tap.receive caller id outside a.outside)
  | .send caller stream bytes outside =>
    match a.live? stream with
    | none => a
    | some id => a.settle (a.tap.send caller id bytes outside a.outside)
  | .closeTraffic stream => a.closeTraffic stream
  | .drop stream =>
    { a.closeTraffic stream with
      streams := a.streams.modify stream fun s => { s with dropped := true } }
  | .policy change => { a with tap := { a.tap with book := change a.tap.book } }
  | .clock change => { a with tap := { a.tap with clock := change a.tap.clock } }
  | .aside change => { a with outside := change a.outside }
  | .clear => { a with tap := { a.tap with ledger := a.tap.ledger.clear } }

/-- The application after actions one after another. -/
def run (a : Application σ) (actions : List (Action σ)) : Application σ :=
  actions.foldl perform a

/-- The two readings that a call made now would take. -/
def timing (a : Application σ) : Timing :=
  ⟨a.tap.clock.read.1, a.tap.clock.read.2.read.1⟩

/-- What an answer amounts to; a failure amounts to nothing. -/
def amount {α ε : Type} [Zero β] (of : α → β) : Except ε α → β
  | .ok answer => of answer
  | .error _ => 0

/-- The rows of a batch: those of all its parts. -/
def batchRows (counts : List UInt64) : Nat := (counts.map UInt64.toNat).sum

/-- A batch as it reaches the outside. -/
def batchCall {ε : Type} (a : Application σ) (caller : Caller) (batch : List String)
    (outside : List String → σ → Except ε (List UInt64) × σ) : StatementCall where
  text := Batch.describe batch
  kind := .classify (Batch.describe batch)
  caller := caller
  timing := a.timing
  rows := amount batchRows (outside batch a.outside).1

/-- The identity of a connection that is opened now. -/
def nextId (a : Application σ) (caller : Caller) (address : Address) : ConnectionId where
  address := address
  ordinal := (a.tap.ledger.nextOrdinal address).1
  owner := caller.thread
  trace := a.tap.settings.siteOf caller

/-- Whether the policy refuses connections to an address now. -/
def refuses (a : Application σ) (address : Address) : Bool :=
  (a.tap.book.registry.socketStatus address.host address.port).isRefused

/-- A transfer over a stream as it reaches the outside, if the stream is in use and the policy lets
it through. -/
def transfer? (a : Application σ) (caller : Caller) (stream : Nat) (direction : Direction)
    (bytes : List UInt8) : Option Happening :=
  match a.live? stream with
  | none => none
  | some id =>
    if a.refuses id.address then none
    else some (.transfer { stream, id, caller, timing := a.timing, direction, bytes })

/-- The bytes that an answer moved; a failure moves none. -/
def movedBytes {α ε : Type} (of : α → List UInt8) : Except ε α → List UInt8
  | .ok answer => of answer
  | .error _ => []

/-- What can be seen of an action beside the tap. -/
def happening? (a : Application σ) : Action σ → Option Happening
  | .query caller sql outside =>
    some (.statement
      { text := sql, kind := .classify sql, caller, timing := a.timing,
        rows := amount List.length (outside a.outside).1 })
  | .execute caller sql outside =>
    some (.statement
      { text := sql, kind := .classify sql, caller, timing := a.timing,
        rows := amount UInt64.toNat (outside a.outside).1 })
  | .executeBatch caller batch outside => some (.statement (a.batchCall caller batch outside))
  | .executePending caller name outside =>
    some (.statement (a.batchCall caller (a.pending name) outside))
  | .systemCall caller name _ =>
    some (.statement { text := name, kind := .system, caller, timing := a.timing, rows := 0 })
  | .openDataSource caller url user _ =>
    if (a.tap.book.registry.dataSourceStatus url user).isRefused then none
    else
      some (.statement
        { text := dataSourceConnect, kind := .system, caller, timing := a.timing, rows := 0 })
  | .connect caller address outside =>
    if a.refuses address then none
    else
      let stream := match (outside a.outside).1 with
        | .ok _ => some a.streams.length
        | .error _ => none
      some (.connect { stream, id := a.nextId caller address, timing := a.timing })
  | .receive caller stream outside =>
    a.transfer? caller stream .received (movedBytes (fun bytes => bytes) (outside a.outside).1)
  | .send caller stream bytes outside =>
    a.transfer? caller stream .sent (movedBytes (fun taken => bytes.take taken) (outside a.outside).1)
  | .closeTraffic stream | .drop stream => (a.live? stream).map (.closing stream)
  | .clear => some .cleared
  | _ => none

/-- What can be seen of a run beside the tap. -/
def happenings (a : Application σ) : List (Action σ) → List Happening
  | [] => []
  | act :: rest => (a.happening? act).toList ++ (a.perform act).happenings rest

/-- What an action that happens says about the application that performs it. -/
inductive Sees (a : Application σ) (act : Action σ) : Happening → Prop where
  | statement (c : StatementCall) : Sees a act (.statement c)
  | connect {c : ConnectCall} (hact : act.isConnect = true) (caller : Caller)
      (hid : c.id = a.nextId caller c.id.address) (htiming : c.timing = a.timing)
      (hstream : c.stream = none ∨ c.stream = some a.streams.length) : Sees a act (.connect c)
  | transfer {c : TransferCall} (hlive : a.live? c.stream = some c.id)
      (htiming : c.timing = a.timing) : Sees a act (.transfer c)
  | closing {stream : Nat} {id : ConnectionId} (hlive : a.live? stream = some id) :
      Sees a act (.closing stream id)
  | cleared (hact : act = .clear) : Sees a act .cleared

/-- A transfer happens on a stream that is live, and tells of what was moved there. -/
theorem sees_transfer? {a : Application σ} {act : Action σ} {caller : Caller} {stream : Nat}
    {direction : Direction} {bytes : List UInt8} {h : Happening}
    (hh : a.transfer? caller stream direction bytes = some h) : a.Sees act h := by
  unfold transfer? at hh
  cases hlive : a.live? stream with
  | none =>
    rw [hlive] at hh
    cases hh
  | some id =>
    simp only [hlive] at hh
    split at hh
    · cases hh
    · cases hh
      exact .transfer hlive rfl

/-- A packet is closed on a stream that is live. -/
theorem sees_closing {a : Application σ} {act : Action σ} {stream : Nat} {h : Happening}
    (hh : (a.live? stream).map (Happening.closing stream) = some h) : a.Sees act h := by
  obtain ⟨id, hlive, rfl⟩ := Option.map_eq_some_iff.1 hh
  exact .closing hlive

/-- Everything that happens is seen in one of these ways. -/
theorem sees_happening {a : Application σ} {act : Action σ} {h : Happening}
    (hh : a.happening? act = some h) : a.Sees act h := by
  cases act with
  | query caller sql outside => cases hh; exact .statement _
  | execute caller sql outside => cases hh; exact .statement _
  | executeBatch caller batch outside => cases hh; exact .statement _
  | executePending caller name outside => cases hh; exact .statement _
  | systemCall caller name outside => cases hh; exact .statement _
  | openDataSource caller url user outside =>
    simp only [happening?] at hh
    split at hh
    · cases hh
    · cases hh
      exact .statement _
  | connect caller address outside =>
    simp only [happening?] at hh
    split at hh
    · cases hh
    · cases hh
      refine .connect rfl caller rfl rfl ?_
      cases (outside a.outside).1 with
      | ok opened => exact .inr rfl
      | error e => exact .inl rfl
  | receive caller stream outside => exact sees_transfer? hh
  | send caller stream bytes outside => exact sees_transfer? hh
  | closeTraffic stream => exact sees_closing hh
  | drop stream => exact sees_closing hh
  | clear => cases hh; exact .cleared rfl
  | _ => cases hh

end Application

end Wiretap
