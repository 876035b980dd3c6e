import Wiretap.Tap
import Wiretap.Statement.Batch
import Wiretap.Statement.Normal
/-!
# Statements and data sources through a tap

Every statement is accounted, whether it succeeds or fails, under the normal form of its text and
the kind of that form; a failure has no rows.  A batch is one statement with the text of the batch,
and its rows are those of all its parts.  A driver call that is no SQL is accounted as a system
statement under the name it is given.

Connecting to a data source asks the policy first, like connecting to an address, and counts as a
system statement where it is let through.
-/

namespace Wiretap

/-- The name under which connecting to a data source is accounted. -/
def dataSourceConnect : String := "DataSource.connect"

namespace Tap

/-- Accounts a statement.  Where no kind is given it is that of the text. -/
def recordStatement (t : Tap) (caller : Caller) (sql : String) (kind : Option StatementKind)
    (elapsed rows : UInt64) : Tap :=
  if t.settings.monitorSql then
    let normal := normalSql sql
    let (shared, ledger) := t.ledger.intern normal
    let (trace, t) := { t with ledger := ledger }.trace caller
    let id : StatementId :=
      { sql := shared, kind := kind.getD (.classify normal), owner := caller.thread, trace }
    { t with ledger := t.ledger.recordStatement id { Stats.operation elapsed with rows := rows } }
  else t

/-- Makes a call that is accounted as a statement.  `rows` tells how many rows an answer has. -/
def statement (t : Tap) (caller : Caller) (sql : String) (kind : Option StatementKind)
    (rows : α → UInt64) (outside : σ → Except ε α × σ) (state : σ) : Except ε α × σ × Tap :=
  let (timed, state, t) := t.ask outside state
  let count := match timed.answer with
    | .ok answer => rows answer
    | .error _ => 0
  (timed.answer, state, t.recordStatement caller sql kind timed.elapsed count)

/-- Runs a query: the outside answers with the rows. -/
def query (t : Tap) (caller : Caller) (sql : String) (outside : σ → Except ε (List ρ) × σ)
    (state : σ) : Except ε (List ρ) × σ × Tap :=
  t.statement caller sql none (fun rows => UInt64.ofNat rows.length) outside state

/-- Runs a statement: the outside answers with the number of rows it touched. -/
def execute (t : Tap) (caller : Caller) (sql : String) (outside : σ → Except ε UInt64 × σ)
    (state : σ) : Except ε UInt64 × σ × Tap :=
  t.statement caller sql none (fun count => count) outside state

/-- Runs a batch: the outside answers with the number of rows that each part touched. -/
def executeBatch (t : Tap) (caller : Caller) (batch : List String)
    (outside : σ → Except ε (List UInt64) × σ) (state : σ) :
    Except ε (List UInt64) × σ × Tap :=
  t.statement caller (Batch.describe batch) none sumWords outside state

/-- Makes a driver call that is no SQL. -/
def systemCall (t : Tap) (caller : Caller) (name : String) (outside : σ → Except ε α × σ)
    (state : σ) : Except ε α × σ × Tap :=
  t.statement caller name (some .system) (fun _ => 0) outside state

/-- Connects to a data source. -/
def openDataSource (t : Tap) (caller : Caller) (url : String) (user : Option String)
    (outside : σ → Except ε α × σ) (state : σ) : Except (Denial ε) α × σ × Tap :=
  let (status, book) := t.book.resolveDataSource url user
  let t := { t with book := book }.delay status
  if status.isRefused then (.error (.refused (.dataSource url user)), state, t)
  else
    let (answer, state, t) := t.systemCall caller dataSourceConnect outside state
    (answer.mapError .failed, state, t)

end Tap

end Wiretap
