import Wiretap.Proofs.Application.Ledger
/-!
# A normal form is settled

Replacing the lists of a text could leave a text with lists of its own: what a list is replaced by
stands beside what stood beside the list, and the two might be read as one.  They never are.  What
replaces a list begins with the signs that a list begins with, and these end any reading that was
begun before, so **reading a normal form goes as reading the text went** (`listEnd?_replaced`).
What replaces a list has one question mark only, and is no list itself.

* `replaced_replaced` — the normal form of a normal form is that normal form;
* `normal_form_settled` — so an application may send a text or its normal form: the two are counted
  as one, under the kind of what was sent.
-/

namespace Wiretap

open Text Wiretap.Normal

namespace Normal

/-- What replaces a list is not the beginning of one. -/
theorem listAt?_standIn (r : List Char) : listAt? (standIn ++ r) = none := rfl

/-- The first two signs of a list end any reading that was begun before them. -/
theorem listEnd?_front {blank i : Char} (hblank : isAsciiBlank blank = true)
    (hi : i = 'i' ∨ i = 'I') (seek : Seek) (r : List Char) :
    listEnd? seek (blank :: i :: r) = none := by
  have hends := listEnd?_append hblank hi seek [] r
  rw [List.nil_append] at hends
  rw [hends]
  cases seek <;> rfl

/-- **Reading goes on over a normal form as it does over the text.**  The induction follows the
replacing.  At a list both readings end, by the two signs that the list and what replaces it have
in common. -/
theorem listEnd?_replaced (seek : Seek) (cs : List Char) :
    listEnd? seek (replaced cs) = (listEnd? seek cs).map replaced := by
  induction cs using reading generalizing seek with
  | nil => cases seek <;> rfl
  | @list cs rest hlist _ =>
    obtain ⟨list, h, rfl⟩ := placeholderList_of_listAt? hlist
    obtain @⟨blank, i, n, gap, marks, k, hblank, hi, -, -, -, -⟩ := h
    have hstandIn : listEnd? seek (standIn ++ replaced rest) = none :=
      listEnd?_front rfl (.inl rfl) seek _
    rw [replaced_of_list hlist, hstandIn, List.cons_append, List.cons_append,
      listEnd?_front hblank hi, Option.map_none]
  | @char c r hchar ih =>
    rw [replaced_of_char hchar]
    rcases listEnd?_step seek c with hends | ⟨next, hgoes⟩ | hfound
    · rw [hends, hends, Option.map_none]
    · rw [hgoes, hgoes, ih]
    · rw [hfound, hfound, Option.map_some]

/-- A character that begins no list begins none before a normal form. -/
theorem listAt?_cons_replaced {c : Char} {r : List Char} (h : listAt? (c :: r) = none) :
    listAt? (c :: replaced r) = none := by
  rw [listAt?] at h ⊢
  split
  · rename_i hblank
    rw [if_pos hblank] at h
    rw [listEnd?_replaced, h, Option.map_none]
  · rfl

/-- What replaces a list is left as it is. -/
theorem replaced_standIn (r : List Char) : replaced (standIn ++ r) = standIn ++ replaced r := by
  have hword : ∀ c r, isAsciiBlank c = false → listAt? (c :: r) = none := by
    intro c r hc
    rw [listAt?, hc, if_neg Bool.false_ne_true]
  have hopening : listAt? (' ' :: '(' :: '?' :: ')' :: r) = none := rfl
  have hwhole := listAt?_standIn r
  rw [standIn_eq] at hwhole ⊢
  simp only [List.cons_append, List.nil_append] at hwhole ⊢
  rw [replaced_of_char hwhole, replaced_of_char (hword 'i' _ rfl),
    replaced_of_char (hword 'n' _ rfl), replaced_of_char hopening,
    replaced_of_char (hword '(' _ rfl), replaced_of_char (hword '?' _ rfl),
    replaced_of_char (hword ')' _ rfl)]

/-- **The normal form of a normal form is that normal form.** -/
theorem replaced_replaced (cs : List Char) : replaced (replaced cs) = replaced cs := by
  induction cs using reading with
  | nil => rfl
  | list hlist ih => rw [replaced_of_list hlist, replaced_standIn, ih]
  | char hchar ih =>
    rw [replaced_of_char hchar, replaced_of_char (listAt?_cons_replaced hchar), ih]

end Normal

namespace Tap

/-- **One more statement was counted** under the normal form of a text and the kind of the text as
it was sent; none was, where statements are not monitored. -/
def CountsSent (t t' : Tap) (caller : Caller) (sql : String) : Prop :=
  ∃ delta : Stats, delta.operations = 1 ∧ t'.ledger.statements =
    if t.settings.monitorSql then
      Ledger.count t.ledger.statements
        { sql := normalSql sql, kind := .classify sql, owner := caller.thread,
          trace := t.settings.siteOf caller } delta
    else t.ledger.statements

/-- A note of a statement counts it as what was sent. -/
theorem Notes.countsSent {t t' : Tap} {caller : Caller} {sql : String} {timing : Timing}
    {rows : Nat} (h : t.Notes t' (some (.statement
      { text := sql, kind := .classify sql, caller, timing, rows }))) :
    t.CountsSent t' caller sql := by
  let call : StatementCall := { text := sql, kind := .classify sql, caller, timing, rows }
  have hnoted : t'.ledger.content.statements =
      (t.ledger.content.note t.settings (.statement call)).statements := by
    rw [h.content]
    rfl
  refine ⟨.ofGain call.gain, rfl, ?_⟩
  rw [← Ledger.content_statements, hnoted, Ledger.note]
  split <;> rfl

end Tap

/-- **Normal forms are settled.**  Let `sql` be any text.

* Its normal form is its own normal form, and has no placeholder list.
* The normal form is of the kind of the text.
* A tap through which the text is run, as a query or as a statement, counts it under the normal
  form and the kind of the text as it was sent, whoever runs it and whatever comes of it; and so it
  counts a batch, whose text is its description. -/
theorem normal_form_settled (sql : String) :
    normalSql (normalSql sql) = normalSql sql ∧
    (¬ ∃ list, PlaceholderList list ∧ list <:+: (normalSql sql).toList) ∧
    StatementKind.classify (normalSql sql) = StatementKind.classify sql ∧
    ∀ {σ ρ ε : Type} (t : Tap) (caller : Caller) (state : σ),
      (∀ outside : σ → Except ε (List ρ) × σ,
        t.CountsSent (t.query caller sql outside state).2.2 caller sql) ∧
      (∀ outside : σ → Except ε UInt64 × σ,
        t.CountsSent (t.execute caller sql outside state).2.2 caller sql) ∧
      ∀ (batch : List String) (outside : σ → Except ε (List UInt64) × σ),
        t.CountsSent (t.executeBatch caller batch outside state).2.2 caller
          (Batch.describe batch) := by
  have hsettled : replaced (normalSql sql).toList = (normalSql sql).toList := by
    rw [normalSql_eq, String.toList_ofList, replaced_replaced]
  refine ⟨?_, ?_, StatementKind.classify_normalSql sql, fun t caller state => ⟨?_, ?_, ?_⟩⟩
  · rw [normalSql_eq (normalSql sql), hsettled, String.ofList_toList]
  · rintro ⟨list, hlist, hpart⟩
    exact replaced_eq_self_iff.1 hsettled list hlist hpart
  · intro outside
    exact (t.notes_sql caller sql _ List.length (fun _ => rfl) outside state).countsSent
  · intro outside
    exact (t.notes_sql caller sql _ UInt64.toNat (fun _ => UInt64.ofNat_toNat.symm) outside
      state).countsSent
  · intro batch outside
    exact (t.notes_sql caller (Batch.describe batch) _ Application.batchRows sum_words outside
      state).countsSent

/-- What replaces a list stands between a list that is not ended and one that is. -/
example : normalSql "a in (?, in(?,?)\nIN ( ?,?)" = "a in (?, in (?) in (?)" := by decide

end Wiretap
