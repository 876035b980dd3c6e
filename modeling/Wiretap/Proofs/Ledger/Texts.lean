import Mathlib.Data.Finset.Card
import Wiretap.Proofs.Application.Ledger
import Wiretap.Proofs.Ledger.Timers
/-!
# The texts that are shared

An interner has one place for each hash.  The first text that comes with a hash takes the place and
holds it until the interner is cleared; a text that finds another one there is handed back as it
is, and the place is left alone.  Nothing is asked of the hash here: it may send all texts to one
place.

* `Interner.resolve_intern` says what one interning does to every place at once.
* `Interner.KeepsFirst` says what the places hold: of the texts that came, the first with each hash.
  Interning and clearing keep this, and a ledger does nothing else to its interner, so it holds
  after every history (`Ledger.keepsFirst_after`).  How many texts are kept follows from it.
* A tap makes the identity of a statement out of texts that the interner hands back
  (`Tap.statementId`), and these are the texts that went in (`Tap.key_statementId`).

`texts_of_history` puts this together.
-/

namespace Wiretap

namespace Interner

variable {t : Interner} {texts : List String}

@[simp] theorem hash_intern (t : Interner) (s : String) : (t.intern s).2.hash = t.hash := by
  unfold intern
  split <;> rfl

/-- **One interning.**  A place that is taken stays as it is, whatever text comes; a free place
takes the text if it is the place of its hash. -/
theorem resolve_intern (t : Interner) (s : String) (h : UInt64) :
    (t.intern s).2.resolve h = (t.resolve h).or (if t.hash s = h then some s else none) := by
  cases htaken : t.texts.get? (t.hash s) with
  | some shared =>
    have hsame : (t.intern s).2 = t := by simp [intern, htaken]
    rw [hsame]
    by_cases hplace : t.hash s = h
    · have hold : t.resolve h = some shared := hplace ▸ htaken
      simp [hold]
    · simp [hplace]
  | none =>
    have htook : (t.intern s).2.resolve h = (t.texts.insert (t.hash s) s).get? h := by
      simp [intern, resolve, htaken]
    rw [htook]
    by_cases hplace : t.hash s = h
    · have hfree : t.resolve h = none := hplace ▸ htaken
      rw [if_pos hplace, hfree, ← hplace]
      exact Table.get?_insert_self _ _ _
    · rw [if_neg hplace, Option.or_none]
      exact Table.get?_insert_other _ (beq_eq_false_iff_ne.2 hplace) _

/-- Of the texts that came, the interner keeps the first with each hash. -/
def KeepsFirst (t : Interner) (texts : List String) : Prop :=
  ∀ h, t.resolve h = texts.find? fun s => t.hash s == h

/-- An interner that keeps nothing yet. -/
theorem keepsFirst_empty (hash : String → UInt64) : ({ hash } : Interner).KeepsFirst [] :=
  fun _ => rfl

/-- Nothing is kept where all texts were forgotten. -/
theorem keepsFirst_clear (t : Interner) : t.clear.KeepsFirst [] := fun _ => rfl

/-- A text that comes later than another with its hash is not kept. -/
theorem KeepsFirst.intern (hkeeps : t.KeepsFirst texts) (s : String) :
    (t.intern s).2.KeepsFirst (texts ++ [s]) := by
  intro h
  have hlast : [s].find? (fun s => t.hash s == h) = if t.hash s = h then some s else none := by
    simp [List.find?_singleton]
  calc (t.intern s).2.resolve h
      = (t.resolve h).or (if t.hash s = h then some s else none) := t.resolve_intern s h
    _ = (texts.find? fun s => t.hash s == h).or ([s].find? fun s => t.hash s == h) := by
        rw [hkeeps h, hlast]
    _ = (texts ++ [s]).find? fun s => t.hash s == h := List.find?_append.symm
    _ = (texts ++ [s]).find? fun text => (t.intern s).2.hash text == h := by rw [hash_intern]

/-- The places that are taken are those of the texts that came. -/
theorem KeepsFirst.mem_keys_iff (hkeeps : t.KeepsFirst texts) (h : UInt64) :
    h ∈ t.texts.keys ↔ h ∈ texts.map t.hash := by
  have hfound : t.texts.get? h = texts.find? fun s => t.hash s == h := hkeeps h
  rw [Table.mem_keys_iff, Table.contains_eq_isSome, hfound, List.find?_isSome, List.mem_map]
  simp only [beq_iff_eq]

/-- As many texts are kept as there are different hashes among those that came. -/
theorem KeepsFirst.size_eq (hkeeps : t.KeepsFirst texts) :
    t.size = (texts.map t.hash).toFinset.card := by
  have hplaces : t.texts.keys.toFinset = (texts.map t.hash).toFinset := by
    ext h
    rw [List.mem_toFinset, List.mem_toFinset, hkeeps.mem_keys_iff]
  rw [← hplaces, List.toFinset_card_of_nodup t.texts.nodup_keys, Table.keys, List.length_map]
  rfl

end Interner

/-- The text that is interned, if one is. -/
def LedgerOp.text? : LedgerOp → Option String
  | intern text => some text
  | _ => none

namespace Ledger

/-- Only interning and clearing change what is kept. -/
theorem texts_perform (l : Ledger) {op : LedgerOp} (hclear : op.isClear = false)
    (htext : op.text? = none) : (l.perform op).texts = l.texts := by
  cases op with
  | intern text => cases htext
  | clear => cases hclear
  | append id chunk => rw [perform, append_frame]
  | flush id => rw [perform, flush_frame]
  | _ => rfl

/-- **Every history keeps the first text of each hash.**  The hash is carried along, for it is read
off the interner as it is now. -/
theorem keepsFirst_after {l : Ledger} (hempty : l.texts.KeepsFirst []) (ops : List LedgerOp) :
    (l.after ops).texts.hash = l.texts.hash ∧
      (l.after ops).texts.KeepsFirst (LedgerOp.recorded LedgerOp.text? ops) := by
  refine recorded_after
    (fun l' texts => l'.texts.hash = l.texts.hash ∧ l'.texts.KeepsFirst texts)
    ?cleared ?interned ?kept ⟨rfl, hempty⟩ ops
  case cleared =>
    intro l' texts h
    exact ⟨h.1, l'.texts.keepsFirst_clear⟩
  case interned =>
    intro l' texts op text htext h
    obtain ⟨hhash, hkeeps⟩ := h
    cases op with
    | intern text' =>
      obtain rfl := Option.some.inj htext
      exact ⟨(l'.texts.hash_intern text').trans hhash, hkeeps.intern text'⟩
    | _ => cases htext
  case kept =>
    intro l' texts op hclear htext h
    rw [l'.texts_perform hclear htext]
    exact h

end Ledger

namespace Tap

/-- The identity that a statement is accounted under, as a tap makes it now: its texts are those
that the interner hands back. -/
def statementId (t : Tap) (caller : Caller) (sql : String) (kind : Option StatementKind) :
    StatementId :=
  let normal := normalSql sql
  let (shared, ledger) := t.ledger.intern normal
  { sql := shared
    kind := kind.getD (.classify normal)
    owner := caller.thread
    trace := ({ t with ledger := ledger }.trace caller).1 }

/-- What a tap does to its ledger when it accounts a statement: the normal form is interned, then
the call site if call sites are captured, and the identity made of both is counted. -/
def statementOps (t : Tap) (caller : Caller) (sql : String) (kind : Option StatementKind)
    (elapsed rows : UInt64) : List LedgerOp :=
  if t.settings.monitorSql then
    .intern (normalSql sql) :: ((t.settings.siteOf caller).toList.map .intern ++
      [.recordStatement (t.statementId caller sql kind)
        { Stats.operation elapsed with rows := rows }])
  else []

/-- Accounting a statement is a history of the ledger. -/
theorem recordStatement_ledger (t : Tap) (caller : Caller) (sql : String)
    (kind : Option StatementKind) (elapsed rows : UInt64) :
    (t.recordStatement caller sql kind elapsed rows).ledger =
      t.ledger.after (t.statementOps caller sql kind elapsed rows) := by
  unfold recordStatement statementOps
  split
  · unfold statementId trace Settings.siteOf
    split <;> rfl
  · rfl

/-- The interner does not show in the identity of a statement. -/
theorem key_statementId (t : Tap) (caller : Caller) (sql : String) (kind : Option StatementKind) :
    (t.statementId caller sql kind).key =
      (normalSql sql, kind.getD (.classify (normalSql sql)), caller.thread.id,
        t.settings.siteOf caller) := by
  simp only [statementId, StatementId.key, trace_fst, Ledger.intern_fst]

end Tap

/-- **The texts over a history.**  Whatever is done to a ledger, and whatever hash its interner goes
by, interning hands back the very text; under a hash stands the first text that came with it since
the ledger was last cleared; and as many texts are kept as different hashes came.  What a tap does
to its ledger when it accounts a statement is such a history as well, and the identities that taps
make are the same just where normal form, kind, thread and call site are, whatever their interners
hold and whatever texts have one hash. -/
theorem texts_of_history (mergeThreshold : Duration) (capacity : Nat) (hash : String → UInt64)
    (ops : List LedgerOp) :
    let l := ({ mergeThreshold, capacity, texts := { hash } } : Ledger).after ops
    let texts := LedgerOp.recorded LedgerOp.text? ops
    (∀ s, (l.texts.intern s).1 = s) ∧
      (∀ h, l.texts.resolve h = texts.find? fun s => hash s == h) ∧
      l.texts.size = (texts.map hash).toFinset.card ∧
      (∀ (t : Tap) (caller : Caller) (sql : String) (kind : Option StatementKind)
        (elapsed rows : UInt64),
        (t.recordStatement caller sql kind elapsed rows).ledger =
          t.ledger.after (t.statementOps caller sql kind elapsed rows)) ∧
      ∀ (one other : Tap) (caller caller' : Caller) (sql sql' : String)
        (kind kind' : Option StatementKind),
        (one.statementId caller sql kind == other.statementId caller' sql' kind') = true ↔
          normalSql sql = normalSql sql' ∧
            kind.getD (.classify (normalSql sql)) = kind'.getD (.classify (normalSql sql')) ∧
            caller.thread.id = caller'.thread.id ∧
            one.settings.siteOf caller = other.settings.siteOf caller' := by
  intro l texts
  obtain ⟨hhash, hkeeps⟩ : l.texts.hash = hash ∧ l.texts.KeepsFirst texts :=
    Ledger.keepsFirst_after (Interner.keepsFirst_empty hash) ops
  refine ⟨l.texts.intern_fst, ?_, ?_, Tap.recordStatement_ledger, ?_⟩
  · intro h
    rw [hkeeps h, hhash]
  · rw [hkeeps.size_eq, hhash]
  · intro one other caller caller' sql sql' kind kind'
    rw [StatementId.beq_iff, Tap.key_statementId, Tap.key_statementId]
    simp only [Prod.mk.injEq]

/-- All texts have one hash.  The first after the clearing is kept, and the second comes back as it
is, again and again. -/
example :
    let l := ({ texts := { hash := fun _ => 7 } } : Ledger).after
      [.intern "select 0", .clear, .intern "select 1", .intern "select 2"]
    (l.texts.intern "select 2").1 = "select 2" ∧ l.texts.resolve 7 = some "select 1" ∧
      l.texts.resolve 8 = none ∧ l.texts.size = 1 := by
  decide +kernel

end Wiretap
