import Wiretap.Tap
/-!
# Connections through a tap

Connecting, reading and writing each ask the policy first, and note the address that was asked
about.  What the policy refuses never reaches the outside and is not accounted.  Making sure of
what was written is handed on as it is.

* A **connect** sleeps for the delay of the policy in any case.  One that is let through takes the
  next ordinal of the address, and counts as an operation even where the outside refuses it.
* A **transfer**, which is a read or a write, sleeps for the delay only where it is refused.  One
  that is let through is accounted under the identity of the connection on the calling thread, and
  its bytes are added to the packets of the connection.  Where the connection is throttled, the
  sleep grows with the number of windows that the bytes fill.
-/

namespace Wiretap

/-- How many bytes a throttled connection moves for one delay. -/
def window : Nat := 65536

namespace Tap

/-- Connects to an address: the identity of the connection, and what the outside made of it. -/
def connect (t : Tap) (caller : Caller) (address : Address) (outside : σ → Except ε α × σ)
    (state : σ) : Except (Denial ε) (ConnectionId × α) × σ × Tap :=
  let (status, book) := t.book.resolveSocket address.host address.port
  let t := { t with book := book }.delay status
  if status.isRefused then (.error (.refused (.socket address)), state, t)
  else
    let (ordinal, ledger) := t.ledger.nextOrdinal address
    let (trace, t) := { t with ledger := ledger }.trace caller
    let id : ConnectionId := { address, ordinal, owner := caller.thread, trace }
    let (timed, state, t) := t.ask outside state
    let t :=
      if t.settings.monitorSockets then
        { t with ledger := t.ledger.recordSocket id (.operation timed.elapsed) }
      else t
    match timed.answer with
    | .ok stream => (.ok (id, stream), state, t)
    | .error e => (.error (.failed e), state, t)

/-- The identity under which a thread uses a connection. -/
def identityOn (id : ConnectionId) (thread : Thread) : ConnectionId :=
  if thread == id.owner then id else id.onThread thread

/-- What a transfer of so many bytes counts for. -/
def transferStats (direction : Direction) (elapsed : UInt64) (size : Nat) : Stats :=
  match direction with
  | .sent => { Stats.operation elapsed with sent := UInt64.ofNat size }
  | .received => { Stats.operation elapsed with received := UInt64.ofNat size }

/-- Accounts a transfer. -/
def account (t : Tap) (caller : Caller) (id : ConnectionId) (direction : Direction)
    (bytes : List UInt8) (elapsed time : UInt64) : Tap :=
  if t.settings.monitorSockets then
    let delta := transferStats direction elapsed bytes.length
    let t := { t with ledger := t.ledger.recordSocket (identityOn id caller.thread) delta }
    if t.settings.captureTraffic && !bytes.isEmpty then
      let (trace, t) := t.trace caller
      let chunk : Chunk := { direction, bytes, time, thread := caller.thread, trace }
      { t with ledger := t.ledger.append id chunk }
    else t
  else t

/-- Sleeps for the bytes that a throttled connection moved. -/
def throttle (t : Tap) (status : Status) (size : Nat) : Tap :=
  match status with
  | .throttle ms =>
    if 0 < ms ∧ 0 < size then t.sleep (ms.toNat * (1 + size / window)) else t
  | _ => t

/-- Moves bytes over a connection.  `moved` tells which bytes an answer of the outside moved; a
failure moves none. -/
def transfer (t : Tap) (caller : Caller) (id : ConnectionId) (direction : Direction)
    (moved : α → List UInt8) (outside : σ → Except ε α × σ) (state : σ) :
    Except (Denial ε) α × σ × Tap :=
  let (status, book) := t.book.resolveSocket id.address.host id.address.port
  let t := { t with book := book }
  if status.isRefused then (.error (.refused (.socket id.address)), state, t.delay status)
  else
    let (timed, state, t) := t.ask outside state
    let bytes := match timed.answer with
      | .ok answer => moved answer
      | .error _ => []
    let t := t.account caller id direction bytes timed.elapsed timed.finish
    let t := t.throttle status bytes.length
    (timed.answer.mapError .failed, state, t)

/-- Reads from a connection: the outside answers with the bytes. -/
def receive (t : Tap) (caller : Caller) (id : ConnectionId)
    (outside : σ → Except ε (List UInt8) × σ) (state : σ) :
    Except (Denial ε) (List UInt8) × σ × Tap :=
  t.transfer caller id .received (fun bytes => bytes) outside state

/-- Writes to a connection: the outside answers with how many of the bytes it took. -/
def send (t : Tap) (caller : Caller) (id : ConnectionId) (bytes : List UInt8)
    (outside : σ → Except ε Nat × σ) (state : σ) : Except (Denial ε) Nat × σ × Tap :=
  t.transfer caller id .sent (fun taken => bytes.take taken) outside state

/-- Makes sure of what was written to a connection.  The policy is not asked, and nothing is
accounted. -/
def flush (t : Tap) (outside : σ → Except ε Unit × σ) (state : σ) : Except ε Unit × σ × Tap :=
  let (result, state) := outside state
  (result, state, t)

/-- Closes the packet of a connection that is still growing. -/
def closeTraffic (t : Tap) (id : ConnectionId) : Tap :=
  { t with ledger := t.ledger.flush id }

end Tap

end Wiretap
