import Wiretap.Proofs.Application
import Wiretap.Proofs.Statement.Kind
/-!
# The ledger after a run is what happened, noted

Every operation of a tap does to the ledger what its happening notes, and nothing where nothing
happened (`perform_ledger`).  So the ledger after a run is the ledger before it with the
happenings of the run noted one after another (`run_ledger`).

The texts that a ledger shares between identities are left out: interning a text hands back the
very text, so they can never be seen in what is counted.  What is left is the **content** of the
ledger.
-/

namespace Wiretap

/-- A ledger but for the texts that it shares. -/
def Ledger.content (l : Ledger) : Ledger := { l with texts := .fresh }

namespace Ledger

@[simp] theorem content_sockets (l : Ledger) : l.content.sockets = l.sockets := rfl
@[simp] theorem content_statements (l : Ledger) : l.content.statements = l.statements := rfl
@[simp] theorem content_traffic (l : Ledger) : l.content.traffic = l.traffic := rfl
@[simp] theorem content_ordinals (l : Ledger) : l.content.ordinals = l.ordinals := rfl

theorem content_recordStatement (l : Ledger) (id : StatementId) (delta : Stats) :
    (l.recordStatement id delta).content = l.content.recordStatement id delta := rfl

theorem content_recordSocket (l : Ledger) (id : ConnectionId) (delta : Stats) :
    (l.recordSocket id delta).content = l.content.recordSocket id delta := rfl

/-- A chunk goes to the packets, whatever texts are shared. -/
theorem content_append (l : Ledger) (id : ConnectionId) (chunk : Chunk) :
    (l.append id chunk).content = l.content.append id chunk := by
  unfold append
  split
  · rfl
  · rfl

/-- So does the end of a packet. -/
theorem content_flush (l : Ledger) (id : ConnectionId) :
    (l.flush id).content = l.content.flush id := by
  unfold flush
  rw [content_traffic]
  split
  · rfl
  · rfl

/-- The ledger after happenings one after another. -/
def noteAll (s : Settings) (l : Ledger) (happenings : List Happening) : Ledger :=
  happenings.foldl (note s) l

theorem noteAll_cons (s : Settings) (l : Ledger) (h : Happening) (rest : List Happening) :
    l.noteAll s (h :: rest) = (l.note s h).noteAll s rest := rfl

/-- What happened first is noted first. -/
theorem noteAll_append (s : Settings) (l : Ledger) (first second : List Happening) :
    l.noteAll s (first ++ second) = (l.noteAll s first).noteAll s second :=
  List.foldl_append

/-- Counters of which one note adds the calls of its happening have, after a run, the calls of all
its happenings added. -/
theorem noteAll_counters {κ γ : Type} [BEq κ] {s : Settings} {counters : Ledger → Table κ Stats}
    {call? : Happening → Option γ} {increment : γ → Increment κ}
    (hnote : ∀ (l : Ledger) (h : Happening), h ≠ .cleared →
      counters (l.note s h) = countAll (counters l) ((call? h).toList.map increment))
    (l : Ledger) {happenings : List Happening} (hcleared : .cleared ∉ happenings) :
    counters (l.noteAll s happenings) =
      countAll (counters l) ((happenings.filterMap call?).map increment) := by
  induction happenings generalizing l with
  | nil => rfl
  | cons h rest ih =>
    obtain ⟨hfirst, hrest⟩ := List.ne_and_not_mem_of_not_mem_cons hcleared
    rw [noteAll_cons, ih _ hrest, hnote l h hfirst.symm, ← countAll_append, ← List.map_append]
    cases hcall : call? h with
    | none => rw [List.filterMap_cons_none hcall, Option.toList_none, List.nil_append]
    | some c => rw [List.filterMap_cons_some hcall, Option.toList_some, List.singleton_append]

/-- Keeping a text for sharing changes no content. -/
theorem content_intern (l : Ledger) (text : String) : (l.intern text).2.content = l.content := rfl

/-- A text that is shared is still the same text. -/
theorem intern_fst (l : Ledger) (text : String) : (l.intern text).1 = text :=
  l.texts.intern_fst text

end Ledger

namespace Tap

variable {σ α ε : Type}

/-- A tap with another ledger. -/
def withLedger (t : Tap) (l : Ledger) : Tap := { t with ledger := l }

/-- The tap after the outside was asked. -/
def asked (t : Tap) : Tap := { t with clock := t.clock.read.2.read.2 }

/-- Both readings of the clock that a question to the outside takes. -/
def timing (t : Tap) : Timing := ⟨t.clock.read.1, t.clock.read.2.read.1⟩

@[simp] theorem asked_settings (t : Tap) : t.asked.settings = t.settings := rfl
@[simp] theorem asked_ledger (t : Tap) : t.asked.ledger = t.ledger := rfl

@[simp] theorem delay_settings (t : Tap) (status : Status) :
    (t.delay status).settings = t.settings := by
  unfold delay
  split <;> rfl

@[simp] theorem delay_ledger (t : Tap) (status : Status) :
    (t.delay status).ledger = t.ledger := by
  unfold delay
  split <;> rfl

@[simp] theorem delay_clock (t : Tap) (status : Status) : (t.delay status).clock = t.clock := by
  unfold delay
  split <;> rfl

@[simp] theorem throttle_settings (t : Tap) (status : Status) (size : Nat) :
    (t.throttle status size).settings = t.settings := by
  unfold throttle
  split
  · split <;> rfl
  · rfl

@[simp] theorem throttle_ledger (t : Tap) (status : Status) (size : Nat) :
    (t.throttle status size).ledger = t.ledger := by
  unfold throttle
  split
  · split <;> rfl
  · rfl

/-- The call site of a caller is noted where the settings ask for it. -/
@[simp] theorem trace_fst (t : Tap) (caller : Caller) :
    (t.trace caller).1 = t.settings.siteOf caller := by
  unfold trace Settings.siteOf
  split
  · exact congrArg some (t.ledger.intern_fst caller.site)
  · rfl

/-- Capturing a call site changes nothing but the texts that the ledger shares. -/
theorem trace_snd (t : Tap) (caller : Caller) :
    ∃ l : Ledger, l.content = t.ledger.content ∧ (t.trace caller).2 = t.withLedger l := by
  unfold trace
  split
  · exact ⟨(t.ledger.intern caller.site).2, rfl, rfl⟩
  · exact ⟨t.ledger, rfl, rfl⟩

@[simp] theorem trace_settings (t : Tap) (caller : Caller) :
    (t.trace caller).2.settings = t.settings := by
  obtain ⟨l, -, h⟩ := t.trace_snd caller
  rw [h]
  rfl

@[simp] theorem trace_clock (t : Tap) (caller : Caller) :
    (t.trace caller).2.clock = t.clock := by
  obtain ⟨l, -, h⟩ := t.trace_snd caller
  rw [h]
  rfl

@[simp] theorem trace_content (t : Tap) (caller : Caller) :
    (t.trace caller).2.ledger.content = t.ledger.content := by
  obtain ⟨l, hl, h⟩ := t.trace_snd caller
  rw [h]
  exact hl

/-- Recording a statement leaves the settings as they are. -/
theorem recordStatement_settings (t : Tap) (caller : Caller) (sql : String)
    (kind : Option StatementKind) (elapsed rows : UInt64) :
    (t.recordStatement caller sql kind elapsed rows).settings = t.settings := by
  unfold recordStatement
  split
  · exact trace_settings _ caller
  · rfl

/-- A statement counts under the normal form of its text, the kind of the text and the caller. -/
theorem recordStatement_content (t : Tap) (caller : Caller) (sql : String)
    (kind : Option StatementKind) (timing : Timing) (rows : Nat) :
    (t.recordStatement caller sql kind timing.elapsed (.ofNat rows)).ledger.content =
      t.ledger.content.note t.settings
        (.statement { text := sql, kind := kind.getD (.classify sql), caller, timing, rows }) := by
  unfold recordStatement
  simp only [Ledger.note]
  split
  · have hkind : kind.getD (.classify (normalSql sql)) = kind.getD (.classify sql) := by
      rw [StatementKind.classify_normalSql]
    have hgain : Stats.ofGain (StatementCall.gain
        { text := sql, kind := kind.getD (.classify sql), caller, timing, rows }) =
          { Stats.operation timing.elapsed with rows := .ofNat rows } := by
      simp only [Stats.ofGain, StatementCall.gain, UInt64.ofNat_toNat]
      rfl
    simp only [Ledger.content_recordStatement, trace_content, trace_fst, Ledger.content_intern,
      Ledger.intern_fst, hkind, hgain]
    rfl
  · rfl

/-- **What an operation comes to:** the settings stay, and the ledger takes a note of what
happened, if anything did. -/
structure Notes (t t' : Tap) (happened : Option Happening) : Prop where
  settings : t'.settings = t.settings
  content : t'.ledger.content = t.ledger.content.noteAll t.settings happened.toList

/-- Where neither the settings nor the ledger changed, nothing was noted. -/
theorem notes_nothing {t t' : Tap} (hsettings : t'.settings = t.settings)
    (hledger : t'.ledger = t.ledger) : t.Notes t' none :=
  ⟨hsettings, congrArg Ledger.content hledger⟩

/-- What goes before an operation and leaves settings and ledger alone does not matter. -/
theorem Notes.of_same {t middle t' : Tap} {happened : Option Happening}
    (h : middle.Notes t' happened) (hsettings : middle.settings = t.settings)
    (hledger : middle.ledger = t.ledger) : t.Notes t' happened := by
  obtain ⟨hs, hc⟩ := h
  rw [hsettings] at hs hc
  rw [hledger] at hc
  exact ⟨hs, hc⟩

/-- The rows that are counted for an answer are what it amounts to. -/
theorem ofNat_amount {rows : α → UInt64} {size : α → Nat}
    (hsize : ∀ answer, rows answer = .ofNat (size answer)) (answer : Except ε α) :
    (match answer with
      | .ok answer => rows answer
      | .error _ => 0) = .ofNat (Application.amount size answer) := by
  cases answer with
  | ok answer => exact hsize answer
  | error e => rfl

/-- A statement is noted with its text, its kind, its time and the rows it gave. -/
theorem notes_statement (t : Tap) (caller : Caller) (sql : String) (kind : Option StatementKind)
    (rows : α → UInt64) (size : α → Nat) (hsize : ∀ answer, rows answer = .ofNat (size answer))
    (outside : σ → Except ε α × σ) (state : σ) :
    t.Notes (t.statement caller sql kind rows outside state).2.2 (some (.statement
      { text := sql, kind := kind.getD (.classify sql), caller, timing := t.timing,
        rows := Application.amount size (outside state).1 })) := by
  refine ⟨?_, ?_⟩
  · exact recordStatement_settings t.asked caller sql kind _ _
  · have h := recordStatement_content t.asked caller sql kind t.timing
      (Application.amount size (outside state).1)
    rw [← ofNat_amount hsize] at h
    exact h

/-- A statement whose kind is not given is noted under the kind that its text has. -/
theorem notes_sql (t : Tap) (caller : Caller) (sql : String) (rows : α → UInt64) (size : α → Nat)
    (hsize : ∀ answer, rows answer = .ofNat (size answer)) (outside : σ → Except ε α × σ)
    (state : σ) :
    t.Notes (t.statement caller sql none rows outside state).2.2 (some (.statement
      { text := sql, kind := .classify sql, caller, timing := t.timing,
        rows := Application.amount size (outside state).1 })) := by
  have h := t.notes_statement caller sql none rows size hsize outside state
  rw [Option.getD_none] at h
  exact h

/-- A driver call is noted under its name, as a system call without rows. -/
theorem notes_systemCall (t : Tap) (caller : Caller) (name : String)
    (outside : σ → Except ε α × σ) (state : σ) :
    t.Notes (t.systemCall caller name outside state).2.2 (some (.statement
      { text := name, kind := .system, caller, timing := t.timing, rows := 0 })) := by
  have h := t.notes_statement caller name (some .system) (fun _ => 0) (fun _ => 0)
    (fun _ => rfl) outside state
  have hrows : Application.amount (fun _ : α => 0) (outside state).1 = 0 := by
    cases (outside state).1 <;> rfl
  rw [hrows, Option.getD_some] at h
  exact h

/-- A data source that is not refused is noted as one system call. -/
theorem notes_openDataSource (t : Tap) (caller : Caller) (url : String) (user : Option String)
    (outside : σ → Except ε α × σ) (state : σ) :
    t.Notes (t.openDataSource caller url user outside state).2.2
      (if (t.book.registry.dataSourceStatus url user).isRefused = true then none
      else some (.statement
        { text := dataSourceConnect, kind := .system, caller, timing := t.timing, rows := 0 })) := by
  let t' : Tap := { t with book := t.book.noteDataSource url user }.delay
    (t.book.registry.dataSourceStatus url user)
  have hsettings : t'.settings = t.settings := delay_settings _ _
  have hledger : t'.ledger = t.ledger := delay_ledger _ _
  have htiming : t'.timing = t.timing := by
    rw [timing, timing, delay_clock]
  unfold openDataSource Book.resolveDataSource
  by_cases hrefused : (t.book.registry.dataSourceStatus url user).isRefused = true
  · simp only [if_pos hrefused]
    exact notes_nothing hsettings hledger
  · simp only [if_neg hrefused]
    have h := t'.notes_systemCall caller dataSourceConnect outside state
    rw [htiming] at h
    exact h.of_same hsettings hledger

/-- A refused connect opens nothing and does nothing to the ledger. -/
theorem connect_of_refused {t : Tap} {address : Address}
    (h : (t.book.registry.socketStatus address.host address.port).isRefused = true)
    (caller : Caller) (outside : σ → Except ε α × σ) (state : σ) :
    (t.connect caller address outside state).1 = .error (.refused (.socket address)) ∧
      t.Notes (t.connect caller address outside state).2.2 none := by
  unfold connect Book.resolveSocket
  simp only [if_pos h]
  exact ⟨trivial, notes_nothing (delay_settings _ _) (delay_ledger _ _)⟩

/-- The identity of the connection that a caller opens next. -/
def nextId (t : Tap) (caller : Caller) (address : Address) : ConnectionId where
  address := address
  ordinal := (t.ledger.nextOrdinal address).1
  owner := caller.thread
  trace := t.settings.siteOf caller

/-- The tap when a connect has been let through and the outside is about to be asked. -/
def admitted (t : Tap) (caller : Caller) (address : Address) : Tap :=
  let t := { t with book := t.book.noteSocket address.host address.port }.delay
    (t.book.registry.socketStatus address.host address.port)
  (({ t with ledger := (t.ledger.nextOrdinal address).2 } : Tap).trace caller).2

@[simp] theorem admitted_settings (t : Tap) (caller : Caller) (address : Address) :
    (t.admitted caller address).settings = t.settings := by
  rw [admitted, trace_settings]
  exact delay_settings _ _

/-- Admitting a stream deals out the next ordinal of its address, and no more. -/
theorem admitted_content (t : Tap) (caller : Caller) (address : Address) :
    (t.admitted caller address).ledger.content = (t.ledger.content.nextOrdinal address).2 := by
  rw [admitted, trace_content]
  simp only [delay_ledger]
  rfl

/-- Admitting a stream does not read the clock. -/
theorem admitted_timing (t : Tap) (caller : Caller) (address : Address) :
    (t.admitted caller address).timing = t.timing := by
  unfold admitted timing
  simp only [trace_clock, delay_clock]

/-- The tap when a call on a connection has been counted. -/
def counted (t : Tap) (id : ConnectionId) (delta : Stats) : Tap :=
  if t.settings.monitorSockets then { t with ledger := t.ledger.recordSocket id delta } else t

/-- A connect that is not refused asks the outside and counts one operation, whatever the answer is.
-/
theorem connect_eq_of_admitted {t : Tap} {address : Address}
    (h : ¬ (t.book.registry.socketStatus address.host address.port).isRefused = true)
    (caller : Caller) (outside : σ → Except ε α × σ) (state : σ) :
    t.connect caller address outside state =
      (((outside state).1.map fun opened => (t.nextId caller address, opened)).mapError .failed,
        (outside state).2,
        (t.admitted caller address).asked.counted (t.nextId caller address)
          (.operation (t.admitted caller address).timing.elapsed)) := by
  unfold connect Book.resolveSocket admitted nextId
  simp only [if_neg h, trace_fst, delay_ledger, delay_settings, ask]
  cases hanswer : (outside state).1 with
  | ok opened => rfl
  | error e => rfl

/-- A connect that is let through opens a stream if the outside does, and counts in any case. -/
theorem connect_of_admitted {t : Tap} {address : Address}
    (h : ¬ (t.book.registry.socketStatus address.host address.port).isRefused = true)
    (caller : Caller) (outside : σ → Except ε α × σ) (state : σ) (stream : Option Nat) :
    (t.connect caller address outside state).1 =
        ((outside state).1.map fun opened => (t.nextId caller address, opened)).mapError .failed ∧
      t.Notes (t.connect caller address outside state).2.2
        (some (.connect { stream, id := t.nextId caller address, timing := t.timing })) := by
  rw [connect_eq_of_admitted h]
  refine ⟨rfl, ?_, ?_⟩
  · show ((t.admitted caller address).asked.counted _ _).settings = t.settings
    unfold counted
    split
    · exact t.admitted_settings caller address
    · exact t.admitted_settings caller address
  · have hgain : Stats.ofGain (ConnectCall.gain
        { stream, id := t.nextId caller address, timing := t.timing }) =
          .operation (t.admitted caller address).timing.elapsed := by
      rw [admitted_timing]
      simp only [Stats.ofGain, ConnectCall.gain, UInt64.ofNat_toNat]
      rfl
    show ((t.admitted caller address).asked.counted _ _).ledger.content =
      t.ledger.content.note t.settings (.connect _)
    simp only [counted, Ledger.note, asked_settings, admitted_settings, hgain]
    split
    · rw [Ledger.content_recordSocket, asked_ledger, admitted_content]
      rfl
    · rw [asked_ledger, admitted_content]
      rfl

/-- A read or a write counts for the thread that makes it, and its bytes join the packets. -/
theorem notes_account (t : Tap) (caller : Caller) (id : ConnectionId) (direction : Direction)
    (bytes : List UInt8) (timing : Timing) (stream : Nat) :
    t.Notes (t.account caller id direction bytes timing.elapsed timing.finish)
      (some (.transfer { stream, id, caller, timing, direction, bytes })) := by
  have hgain : Stats.ofGain (TransferCall.gain
      { stream, id, caller, timing, direction, bytes }) =
        transferStats direction timing.elapsed bytes.length := by
    simp only [Stats.ofGain, TransferCall.gain, UInt64.ofNat_toNat]
    cases direction <;> rfl
  refine ⟨?_, ?_⟩
  · simp only [account]
    split
    · split
      · exact trace_settings _ caller
      · rfl
    · rfl
  · show _ = t.ledger.content.note t.settings (.transfer _)
    simp only [account, Ledger.note, hgain, TransferCall.chunk]
    split
    · split
      · simp only [Ledger.content_append, trace_content, trace_fst]
        rfl
      · rfl
    · rfl

/-- A transfer that is refused does nothing to the ledger, and any other counts. -/
theorem notes_transfer (t : Tap) (caller : Caller) (id : ConnectionId) (direction : Direction)
    (moved : α → List UInt8) (outside : σ → Except ε α × σ) (state : σ) (stream : Nat) :
    t.Notes (t.transfer caller id direction moved outside state).2.2
      (if (t.book.registry.socketStatus id.address.host id.address.port).isRefused = true then none
      else some (.transfer
        { stream, id, caller, timing := t.timing, direction,
          bytes := Application.movedBytes moved (outside state).1 })) := by
  unfold transfer Book.resolveSocket
  by_cases hrefused :
      (t.book.registry.socketStatus id.address.host id.address.port).isRefused = true
  · simp only [if_pos hrefused]
    exact notes_nothing (delay_settings _ _) (delay_ledger _ _)
  · simp only [if_neg hrefused]
    let t' : Tap := ({ t with book := t.book.noteSocket id.address.host id.address.port } : Tap).asked
    have haccount := t'.notes_account caller id direction
      (Application.movedBytes moved (outside state).1) t.timing stream
    obtain ⟨hsettings, hcontent⟩ := haccount.of_same (t := t) rfl rfl
    refine ⟨?_, ?_⟩
    · rw [throttle_settings]
      exact hsettings
    · rw [throttle_ledger]
      exact hcontent

end Tap

namespace Application

variable {σ : Type}

/-- To close a packet is noted where the stream is live. -/
theorem notes_closeTraffic (a : Application σ) (stream : Nat) :
    a.tap.Notes (a.closeTraffic stream).tap ((a.live? stream).map (.closing stream)) := by
  unfold closeTraffic
  cases a.live? stream with
  | none => exact Tap.notes_nothing rfl rfl
  | some id => exact ⟨rfl, Ledger.content_flush _ id⟩

/-- A transfer is noted where the stream is live, with the bytes that moved. -/
theorem notes_transfer? {α ε : Type} (a : Application σ) (caller : Caller) (stream : Nat)
    (direction : Direction) (moved : α → List UInt8) (outside : σ → Except ε α × σ) :
    a.tap.Notes
      (match a.live? stream with
        | none => a
        | some id =>
          a.settle (a.tap.transfer caller id direction moved outside a.outside)).tap
      (a.transfer? caller stream direction (movedBytes moved (outside a.outside).1)) := by
  unfold transfer?
  cases a.live? stream with
  | none => exact Tap.notes_nothing rfl rfl
  | some id => exact a.tap.notes_transfer caller id direction moved outside a.outside stream

/-- **One action.**  The ledger takes a note of what happened, and of nothing else. -/
theorem perform_notes (a : Application σ) (act : Action σ) :
    a.tap.Notes (a.perform act).tap (a.happening? act) := by
  cases act with
  | query caller sql outside =>
    exact a.tap.notes_sql caller sql _ List.length (fun _ => rfl) outside a.outside
  | execute caller sql outside =>
    exact a.tap.notes_sql caller sql _ UInt64.toNat (fun _ => UInt64.ofNat_toNat.symm) outside
      a.outside
  | executeBatch caller batch outside =>
    exact a.tap.notes_sql caller (Batch.describe batch) _ batchRows sum_words (outside batch)
      a.outside
  | addBatch name sql => exact Tap.notes_nothing rfl rfl
  | clearBatch name => exact Tap.notes_nothing rfl rfl
  | executePending caller name outside =>
    exact a.tap.notes_sql caller (Batch.describe (a.pending name)) _ batchRows sum_words
      (outside (a.pending name)) a.outside
  | systemCall caller name outside =>
    exact a.tap.notes_systemCall caller name outside a.outside
  | openDataSource caller url user outside =>
    exact a.tap.notes_openDataSource caller url user outside a.outside
  | connect caller address outside =>
    have htap : (a.perform (.connect caller address outside)).tap =
        (a.tap.connect caller address outside a.outside).2.2 := by
      simp only [perform]
      split <;> rfl
    rw [htap]
    by_cases hrefused : a.refuses address = true
    · simp only [happening?, if_pos hrefused]
      exact (Tap.connect_of_refused hrefused caller outside a.outside).2
    · simp only [happening?, if_neg hrefused]
      exact (Tap.connect_of_admitted hrefused caller outside a.outside _).2
  | receive caller stream outside =>
    exact a.notes_transfer? caller stream .received (fun bytes => bytes) outside
  | send caller stream bytes outside =>
    exact a.notes_transfer? caller stream .sent (fun taken => bytes.take taken) outside
  | closeTraffic stream => exact a.notes_closeTraffic stream
  | drop stream => exact a.notes_closeTraffic stream
  | policy change => exact Tap.notes_nothing rfl rfl
  | clock change => exact Tap.notes_nothing rfl rfl
  | aside change => exact Tap.notes_nothing rfl rfl
  | clear => exact ⟨rfl, rfl⟩

/-- No step changes the settings. -/
theorem perform_settings (a : Application σ) (act : Action σ) :
    (a.perform act).tap.settings = a.tap.settings := (a.perform_notes act).settings

theorem run_cons (a : Application σ) (act : Action σ) (rest : List (Action σ)) :
    a.run (act :: rest) = (a.perform act).run rest := rfl

/-- A run may be made in two parts. -/
theorem run_append (a : Application σ) (first second : List (Action σ)) :
    a.run (first ++ second) = (a.run first).run second := List.foldl_append

/-- No run changes the settings. -/
theorem run_settings (a : Application σ) (actions : List (Action σ)) :
    (a.run actions).tap.settings = a.tap.settings := by
  induction actions generalizing a with
  | nil => rfl
  | cons act rest ih => rw [run_cons, ih, perform_settings]

theorem happenings_cons (a : Application σ) (act : Action σ) (rest : List (Action σ)) :
    a.happenings (act :: rest) = (a.happening? act).toList ++ (a.perform act).happenings rest := rfl

/-- What happens in a run made in two parts happens in the one and then in the other. -/
theorem happenings_append (a : Application σ) (first second : List (Action σ)) :
    a.happenings (first ++ second) = a.happenings first ++ (a.run first).happenings second := by
  induction first generalizing a with
  | nil => rfl
  | cons act rest ih =>
    rw [List.cons_append, happenings_cons, happenings_cons, ih, run_cons, List.append_assoc]

/-- **A run.**  The ledger after a run holds what it held before and the happenings of the run,
noted one after another. -/
theorem run_ledger (a : Application σ) (actions : List (Action σ)) :
    (a.run actions).tap.ledger.content =
      a.tap.ledger.content.noteAll a.tap.settings (a.happenings actions) := by
  induction actions generalizing a with
  | nil => rfl
  | cons act rest ih =>
    have hstep := (a.perform_notes act).content
    rw [run_cons, ih, hstep, perform_settings, happenings_cons, Ledger.noteAll_append]

end Application

end Wiretap
