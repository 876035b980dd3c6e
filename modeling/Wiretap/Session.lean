import Wiretap.Tap.Socket
import Wiretap.Tap.Sql
import Wiretap.Simulated.Network
import Wiretap.Simulated.Database
/-!
# Sessions: a tap in use

A session is a tap with a simulated outside behind it and, by name, the streams, the statements and
the data sources that an application has opened through it.  A name may be given anew; the stream
that had it is then dropped, and a stream that is dropped closes its packet.

What is asked of a name that nothing has is answered by nothing.
-/

namespace Wiretap

open Simulated

/-- The simulated network fails in one way only. -/
def Simulated.Unreachable.kind (_ : Unreachable) : FailureKind := .connectionRefused

namespace Session

/-- A connection in use. -/
structure Stream where
  id : ConnectionId
  remote : Remote
  deriving Repr, Inhabited

/-- A database connection in use. -/
structure Statement where
  executor : Executor
  /-- The statements put aside for a batch. -/
  pending : List String := []
  deriving Inhabited

end Session

/-- A tap in use. -/
structure Session where
  tap : Tap := {}
  network : Network := {}
  streams : Table String Session.Stream := .empty
  statements : Table String Session.Statement := .empty
  sources : Table String DataSource := .empty
  deriving Inhabited

namespace Session

/-- Connects to an address; a stream that had the name is dropped if that succeeds. -/
def connect (s : Session) (caller : Caller) (name : String) (address : Address) :
    Except (Denial Unreachable) ConnectionId × Session :=
  let (result, network, tap) := s.tap.connect caller address (Network.connect address) s.network
  let s := { s with tap := tap, network := network }
  match result with
  | .error e => (.error e, s)
  | .ok (id, remote) =>
    let tap := match s.streams.get? name with
      | some old => s.tap.closeTraffic old.id
      | none => s.tap
    (.ok id, { s with tap := tap, streams := s.streams.insert name ⟨id, remote⟩ })

/-- Writes to a stream; how many bytes were taken. -/
def write (s : Session) (caller : Caller) (name : String) (bytes : List UInt8) :
    Option (Except (Denial Unreachable) Nat) × Session :=
  match s.streams.get? name with
  | none => (none, s)
  | some stream =>
    let (result, network, tap) :=
      s.tap.send caller stream.id bytes (Network.write stream.remote bytes) s.network
    (some result, { s with tap := tap, network := network })

/-- Writes all bytes to a stream.  The network takes them at once, and is not asked about none. -/
def writeAll (s : Session) (caller : Caller) (name : String) (bytes : List UInt8) :
    Option (Except (Denial Unreachable) Unit) × Session :=
  if bytes.isEmpty then (some (.ok ()), s)
  else
    let (result, s) := s.write caller name bytes
    (result.map fun r => r.map fun _ => (), s)

/-- Reads at most so many bytes from a stream. -/
def read (s : Session) (caller : Caller) (name : String) (count : Nat) :
    Option (Except (Denial Unreachable) (List UInt8)) × Session :=
  match s.streams.get? name with
  | none => (none, s)
  | some stream =>
    let (result, remote, tap) := s.tap.receive caller stream.id (Remote.read count) stream.remote
    (some result,
      { s with tap := tap, streams := s.streams.insert name { stream with remote := remote } })

/-- Makes sure of what was written to a stream. -/
def flush (s : Session) (name : String) : Option (Except Unreachable Unit) × Session :=
  match s.streams.get? name with
  | none => (none, s)
  | some stream =>
    let (result, remote, tap) := s.tap.flush Remote.flush stream.remote
    (some result,
      { s with tap := tap, streams := s.streams.insert name { stream with remote := remote } })

/-- Reads from a stream by portions, until one is empty; `fuel` bounds how many are read.  `taken`
are the bytes that were read so far, newest first. -/
def readPortions (s : Session) (caller : Caller) (name : String) (portion : Nat)
    (taken : List UInt8) : Nat → Option (Except (Denial Unreachable) (List UInt8)) × Session
  | 0 => (some (.ok taken.reverse), s)
  | fuel + 1 =>
    match s.read caller name portion with
    | (some (.ok bytes), s) =>
      if bytes.isEmpty then (some (.ok taken.reverse), s)
      else s.readPortions caller name portion (bytes.reverse ++ taken) fuel
    | other => other

/-- The bytes that are still to be read from a stream. -/
def incoming (s : Session) (name : String) : List UInt8 :=
  ((s.streams.get? name).map fun stream => stream.remote.incoming).getD []

/-- Reads a stream to its end, by portions of sixteen bytes. -/
def readToEnd (s : Session) (caller : Caller) (name : String) :
    Option (Except (Denial Unreachable) (List UInt8)) × Session :=
  s.readPortions caller name 16 [] ((s.incoming name).length + 1)

/-- Closes the packet of a stream that is still growing. -/
def closeTraffic (s : Session) (name : String) : Session :=
  match s.streams.get? name with
  | none => s
  | some stream => { s with tap := s.tap.closeTraffic stream.id }

/-- Drops a stream. -/
def dropStream (s : Session) (name : String) : Session :=
  let s := s.closeTraffic name
  { s with streams := s.streams.erase name }

/-- Wraps an executor as a statement. -/
def wrap (s : Session) (name : String) (executor : Executor) : Session :=
  { s with statements := s.statements.insert name { executor } }

/-- Makes a call on the executor of a statement. -/
def onStatement (s : Session) (name : String)
    (call : Tap → Executor → Except ε α × Executor × Tap) : Option (Except ε α) × Session :=
  match s.statements.get? name with
  | none => (none, s)
  | some statement =>
    let (result, executor, tap) := call s.tap statement.executor
    (some result,
      { s with
        tap := tap
        statements := s.statements.insert name { statement with executor := executor } })

/-- Runs a query. -/
def query (s : Session) (caller : Caller) (name sql : String) :
    Option (Except SqlError (List Nat)) × Session :=
  s.onStatement name fun tap executor => tap.query caller sql (Executor.query sql) executor

/-- Runs a statement. -/
def execute (s : Session) (caller : Caller) (name sql : String) :
    Option (Except SqlError UInt64) × Session :=
  s.onStatement name fun tap executor => tap.execute caller sql (Executor.execute sql) executor

/-- Runs a batch. -/
def executeBatch (s : Session) (caller : Caller) (name : String) (batch : List String) :
    Option (Except SqlError (List UInt64)) × Session :=
  s.onStatement name fun tap executor =>
    tap.executeBatch caller batch (Executor.executeBatch batch) executor

/-- Runs a statement beside the tap. -/
def executeBeside (s : Session) (name sql : String) : Option (Except SqlError UInt64) × Session :=
  s.onStatement name fun tap executor =>
    let (result, executor) := Executor.execute sql executor
    (result, executor, tap)

/-- Makes a driver call on the executor of a statement. -/
def systemCall (s : Session) (caller : Caller) (name call : String) (inner : Option String)
    (outcome : Except String α) : Option (Except String α) × Session :=
  s.onStatement name fun tap executor =>
    tap.systemCall caller call (Executor.driverCall inner outcome) executor

/-- The statements put aside for a batch. -/
def pending (s : Session) (name : String) : List String :=
  ((s.statements.get? name).map fun statement => statement.pending).getD []

/-- Puts other statements aside for a batch. -/
def setPending (s : Session) (name : String) (pending : List String) : Session :=
  match s.statements.get? name with
  | none => s
  | some statement =>
    { s with statements := s.statements.insert name { statement with pending := pending } }

/-- Puts one more statement aside for a batch. -/
def addBatch (s : Session) (name sql : String) : Session :=
  s.setPending name (s.pending name ++ [sql])

/-- Runs the batch of the statements put aside, which are then forgotten however it ends. -/
def executePending (s : Session) (caller : Caller) (name : String) :
    Option (Except SqlError (List UInt64)) × Session :=
  (s.setPending name []).executeBatch caller name (s.pending name)

/-- All that the executor of a statement was asked to run. -/
def executed (s : Session) (name : String) : List String :=
  ((s.statements.get? name).map fun statement => statement.executor.executed).getD []

/-- Forgets a statement. -/
def unwrap (s : Session) (name : String) : Session :=
  { s with statements := s.statements.erase name }

/-- Connects to a data source; the connection becomes the statement of a name. -/
def openDataSource (s : Session) (caller : Caller) (source name : String) :
    Option (Except (Denial SqlError) Unit) × Session :=
  match s.sources.get? source with
  | none => (none, s)
  | some d =>
    let (result, d, tap) := s.tap.openDataSource caller d.url d.user DataSource.connect d
    let s := { s with tap := tap, sources := s.sources.insert source d }
    match result with
    | .ok executor => (some (.ok ()), s.wrap name executor)
    | .error e => (some (.error e), s)

end Session

end Wiretap
