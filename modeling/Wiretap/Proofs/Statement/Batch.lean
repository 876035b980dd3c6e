import Wiretap.Proofs.Listing
import Wiretap.Proofs.Statement.Settled
import Wiretap.Proofs.Text.Decimal
/-!
# What the text of a batch says

A batch is counted as one statement, under a text that is made of its own.  Noting one text after
another keeps a list with a row for each text that came, in the order in which they first came, and
the row says how often (`multiplicities_eq`): what came before is counted where it stands, and what
is new is put behind the rest.  So the text of a batch says which texts came first in which order,
and how often each came, and nothing else of the batch shows in it.

The kind of a batch is read off its text, which begins with the first text of the batch.  What
stands behind that one is a blank where it comes again, and a semicolon where another text follows
(`describe_cons`).  A semicolon right behind the first word makes it another word, and no kind is
called by that (`classify_describe`).

`batch_is_described` says both, and which kind the batch is counted under.
-/

namespace Wiretap

namespace Batch

/-! ## Counting -/

section Note

variable {sql : String} {texts : List String} (count : String → Nat)

/-- A text that came before is counted where it stands. -/
theorem note_of_mem (honce : texts.Nodup) (hknown : sql ∈ texts) :
    note sql (texts.map fun t => (t, count t)) =
      texts.map fun t => (t, if t = sql then count t + 1 else count t) := by
  induction texts with
  | nil => cases hknown
  | cons first rest ih =>
    obtain ⟨hfirst, hrest⟩ := List.nodup_cons.1 honce
    rw [List.map_cons, List.map_cons, note]
    by_cases hsame : first = sql
    · subst hsame
      have hothers : ∀ t ∈ rest,
          (t, count t) = (t, if t = first then count t + 1 else count t) := by
        intro t ht
        rw [if_neg]
        rintro rfl
        exact hfirst ht
      rw [if_pos rfl, if_pos rfl, List.map_congr_left hothers]
    · have hlater : sql ∈ rest := (List.mem_cons.1 hknown).resolve_left (Ne.symm hsame)
      rw [if_neg hsame, if_neg hsame, ih hrest hlater]

/-- A new text is put behind the others. -/
theorem note_of_notMem (hnew : sql ∉ texts) :
    note sql (texts.map fun t => (t, count t)) =
      (texts.map fun t => (t, count t)) ++ [(sql, 1)] := by
  induction texts with
  | nil => rfl
  | cons first rest ih =>
    obtain ⟨hfirst, hrest⟩ := not_or.1 (mt List.mem_cons.2 hnew)
    rw [List.map_cons, note, if_neg (Ne.symm hfirst), ih hrest, List.cons_append]

end Note

/-- **The rows of a batch**: the texts in the order in which they first came, each with the number
of times it comes.  The induction goes from the last text back. -/
theorem multiplicities_eq (batch : List String) :
    multiplicities batch = batch.eraseDups.map fun sql => (sql, batch.count sql) := by
  induction batch using List.reverseRecOn with
  | nil => rfl
  | append_singleton before sql ih =>
    have hnote : multiplicities (before ++ [sql]) = note sql (multiplicities before) := by
      rw [multiplicities, List.foldl_concat, multiplicities]
    have hself : (before ++ [sql]).count sql = before.count sql + 1 := by simp
    have hother : ∀ t, t ≠ sql → (before ++ [sql]).count t = before.count t := by
      intro t ht
      simp [Ne.symm ht]
    rw [hnote, ih, eraseDups_concat]
    by_cases hknown : sql ∈ before
    · rw [if_pos hknown, note_of_mem _ (nodup_eraseDups before) (List.mem_eraseDups.2 hknown)]
      refine List.map_congr_left fun t _ => ?_
      by_cases ht : t = sql
      · rw [if_pos ht, ht, hself]
      · rw [if_neg ht, hother t ht]
    · have hnone : before.count sql = 0 := List.count_eq_zero.2 hknown
      have hbefore : ∀ t ∈ before.eraseDups,
          (t, before.count t) = (t, (before ++ [sql]).count t) := by
        intro t ht
        rw [hother t]
        rintro rfl
        exact hknown (List.mem_eraseDups.1 ht)
      rw [if_neg hknown, note_of_notMem _ (mt List.mem_eraseDups.1 hknown), List.map_append,
        List.map_singleton, hself, hnone, List.map_congr_left hbefore]

/-- A batch is described by its distinct texts, each with its count where it is there twice or more.
-/
theorem describe_eq (batch : List String) :
    describe batch = String.intercalate "; " (batch.eraseDups.map fun sql =>
      if 1 < batch.count sql then s!"{sql} /*{batch.count sql} times*/" else sql) := by
  rw [describe, multiplicities_eq, List.map_map]
  rfl

/-- The size of counted texts is the sum of their counts. -/
theorem size_eq_sum (rows : List (String × Nat)) : size rows = (rows.map Prod.snd).sum := by
  induction rows with
  | nil => rfl
  | cons row rest ih =>
    rw [size, List.foldr_cons, List.map_cons, List.sum_cons, ← ih, size]

/-- The counts of the distinct texts of a batch add up to its length. -/
theorem sum_count (batch : List String) :
    (batch.eraseDups.map fun sql => batch.count sql).sum = batch.length := by
  have hsize := size_multiplicities batch
  rw [size_eq_sum, multiplicities_eq, List.map_map] at hsize
  exact hsize

/-! ## The front of the text -/

/-- The first row of a batch is that of its first text, and it is the only one where no other text
comes. -/
theorem multiplicities_cons (first : String) (rest : List String) :
    ∃ more, multiplicities (first :: rest) = (first, rest.count first + 1) :: more ∧
      (more = [] ↔ ∀ sql ∈ rest, sql = first) := by
  rw [multiplicities_eq, List.eraseDups_cons, List.map_cons, List.count_cons_self]
  refine ⟨_, rfl, ?_⟩
  rw [List.map_eq_nil_iff, List.eq_nil_iff_forall_not_mem]
  simp only [List.mem_eraseDups, List.mem_filter, not_and, Bool.not_eq_true, Bool.not_eq_false',
    beq_iff_eq]

/-- **What stands behind the first text**: an annotation where it comes again, a semicolon where
only others come, and nothing where it is alone. -/
theorem describe_cons (first : String) (rest : List String) :
    (first ∈ rest ∧
      ∃ tail, (describe (first :: rest)).toList = first.toList ++ ' ' :: '/' :: tail) ∨
    (first ∉ rest ∧ rest ≠ [] ∧
      ∃ tail, (describe (first :: rest)).toList = first.toList ++ ';' :: tail) ∨
    (rest = [] ∧ describe (first :: rest) = first) := by
  obtain ⟨more, hrows, hmore⟩ := multiplicities_cons first rest
  rw [describe, hrows, List.map_cons, annotated]
  by_cases hagain : first ∈ rest
  · have hcount : 1 < rest.count first + 1 := Nat.succ_lt_succ (List.count_pos_iff.2 hagain)
    have hannotated : s!"{first} /*{rest.count first + 1} times*/" =
        first ++ (" /" ++ s!"*{rest.count first + 1} times*/") := by
      have hsigns : " /*" = " /" ++ "*" := by decide
      simp only [toString, hsigns, String.append_assoc]
    rw [if_pos hcount, hannotated, String.intercalate_cons_append, String.intercalate_cons_append,
      String.toList_append, String.toList_append]
    exact .inl ⟨hagain, _, rfl⟩
  · have hcount : ¬ 1 < rest.count first + 1 := by
      rw [List.count_eq_zero.2 hagain]
      decide
    rw [if_neg hcount]
    cases rest with
    | nil =>
      have hnone : more = [] := hmore.2 fun _ h => nomatch h
      rw [hnone]
      exact .inr (.inr ⟨rfl, String.intercalate_singleton⟩)
    | cons other rest =>
      have hsome : more.map annotated ≠ [] := by
        intro hnone
        have hother := hmore.1 (List.map_eq_nil_iff.1 hnone) other List.mem_cons_self
        exact hagain (hother ▸ List.mem_cons_self)
      rw [String.intercalate_cons_of_ne_nil hsome, String.append_assoc, String.toList_append,
        String.toList_append]
      exact .inr (.inl ⟨hagain, List.cons_ne_nil _ _, _, rfl⟩)

end Batch

namespace StatementKind

open Text

/-- A blank stands behind the first word of a text. -/
def endsFirstWord (sql : String) : Bool := (trimFront sql.toList).any isBlank

section FirstWord

variable {cs : List Char}

/-- A word ends at the end of its text, and at the blank after it as well. -/
theorem firstWord_append_blank (h : trimFront cs ≠ []) {blank : Char}
    (hblank : isBlank blank = true) (tail : List Char) : firstWord (cs ++ blank :: tail) = firstWord cs := by
  have hstop : (blank :: tail).takeWhile (!isBlank ·) = [] := by simp [hblank]
  rw [firstWord, trimFront_append_of_ne_nil h, List.takeWhile_append, hstop, List.append_nil]
  split
  · rename_i hall
    rw [← (List.takeWhile_prefix _).eq_of_length hall, firstWord]
  · rw [firstWord]

/-- Nothing that stands behind the blank after the first word belongs to that word. -/
theorem firstWord_append_of_ended (h : (trimFront cs).any isBlank = true) (tail : List Char) :
    firstWord (cs ++ tail) = firstWord cs := by
  obtain ⟨blank, hmem, hblank⟩ := List.any_eq_true.1 h
  have hshort : ((trimFront cs).takeWhile (!isBlank ·)).length ≠ (trimFront cs).length := by
    intro hall
    have hword := List.takeWhile_eq_self_iff.1 ((List.takeWhile_prefix _).eq_of_length hall)
    have hnot := hword blank hmem
    rw [hblank] at hnot
    cases hnot
  rw [firstWord, trimFront_append_of_ne_nil (List.ne_nil_of_mem hmem), List.takeWhile_append,
    if_neg hshort, firstWord]

/-- A semicolon right behind the first word belongs to the word. -/
theorem semicolon_mem_firstWord (h : (trimFront cs).any isBlank = false) (tail : List Char) :
    ';' ∈ firstWord (cs ++ ';' :: tail) := by
  have hnot : isBlank ';' = false := by decide
  have hword : ∀ c ∈ trimFront cs, (!isBlank c) = true := by
    intro c hc
    rw [Bool.eq_false_iff.2 (List.any_eq_false.1 h c hc)]
    rfl
  rw [firstWord, trimFront_append_cons hnot, List.takeWhile_append_of_pos hword,
    List.takeWhile_cons_of_pos (by rw [hnot]; rfl), List.map_append, List.map_cons]
  exact List.mem_append_right _ List.mem_cons_self

/-- A text names the kind that it names with a comment behind it. -/
theorem classifyChars_append_comment (cs tail : List Char) :
    classifyChars (cs ++ ' ' :: '/' :: tail) = classifyChars cs := by
  by_cases hnone : trimFront cs = []
  · have hblank : ∀ c ∈ cs, isBlank c = true := List.dropWhile_eq_nil_iff.1 hnone
    have hslash : '/' ∈ firstWord (cs ++ ' ' :: '/' :: tail) := by
      rw [firstWord, trimFront_append hblank, ← firstWord, firstWord_of_blank (by decide),
        firstWord_of_not_blank (by decide)]
      exact List.mem_cons_self
    have hempty : firstWord cs = [] := by rw [firstWord, hnone]; rfl
    rw [classifyChars_of_sign (by decide) hslash, classifyChars, hempty]
    decide
  · rw [classifyChars, firstWord_append_blank hnone (by decide), classifyChars]

end FirstWord

/-- **The kind of a batch** is that of its first text.  It is not where another text follows and the
first one is a single word. -/
theorem classify_describe (first : String) (rest : List String) :
    classify (Batch.describe (first :: rest)) =
      if endsFirstWord first ∨ first ∈ rest ∨ rest = [] then classify first else other := by
  rcases Batch.describe_cons first rest with ⟨hagain, tail, htext⟩ | ⟨hnew, hrest, tail, htext⟩ |
    ⟨halone, htext⟩
  · rw [if_pos (.inr (.inl hagain)), classify, htext, classifyChars_append_comment, classify]
  · rw [classify, htext]
    by_cases hended : endsFirstWord first = true
    · rw [if_pos (.inl hended), classifyChars, firstWord_append_of_ended hended, classify,
        classifyChars]
    · have hothers : ¬ (endsFirstWord first = true ∨ first ∈ rest ∨ rest = []) := by
        rintro (h | h | h)
        · exact hended h
        · exact hnew h
        · exact hrest h
      rw [if_neg hothers, classifyChars_of_sign (by decide)
        (semicolon_mem_firstWord (Bool.eq_false_iff.2 hended) tail)]
  · rw [if_pos (.inr (.inr halone)), htext]

end StatementKind

namespace Tap

/-- **One more statement was counted** under the normal form of a text and under a kind; none was,
where statements are not monitored. -/
def CountsAs (t t' : Tap) (caller : Caller) (sql : String) (kind : StatementKind) : Prop :=
  ∃ delta : Stats, delta.operations = 1 ∧ t'.ledger.statements =
    if t.settings.monitorSql then
      Ledger.count t.ledger.statements
        { sql := normalSql sql, kind, owner := caller.thread, trace := t.settings.siteOf caller }
        delta
    else t.ledger.statements

/-- A batch is counted under its description, and under the kind of its first text where a blank
stands behind the first word of that text. -/
theorem countsAs_executeBatch {σ ε : Type} (t : Tap) (caller : Caller) {first : String}
    (rest : List String) (hended : StatementKind.endsFirstWord first = true)
    (outside : σ → Except ε (List UInt64) × σ) (state : σ) :
    t.CountsAs (t.executeBatch caller (first :: rest) outside state).2.2 caller
      (Batch.describe (first :: rest)) (.classify first) := by
  have hkind : StatementKind.classify (Batch.describe (first :: rest)) = .classify first := by
    rw [StatementKind.classify_describe, if_pos (.inl hended)]
  have hsent := (t.notes_sql caller (Batch.describe (first :: rest)) sumWords Application.batchRows
    sum_words outside state).countsSent
  rw [CountsSent, hkind] at hsent
  exact hsent

end Tap

/-- **What the text of a batch says.**  Let `batch` be any list of texts.

* Its description joins the texts in the order in which they first come, each once; the number of
  times that a text comes stands behind it where that is more than one.
* The numbers that stand there, and one where none stands, add up to the length of the batch.
* Batches in which the same texts come first in the same order, and each as often, have the same
  description.
* Where a blank stands behind the first word of the first text, the batch is counted as a statement
  of the kind of that text, whoever runs it and whatever comes of it. -/
theorem batch_is_described (batch : List String) :
    Batch.describe batch = String.intercalate "; " (batch.eraseDups.map fun sql =>
      if 1 < batch.count sql then s!"{sql} /*{batch.count sql} times*/" else sql) ∧
    (batch.eraseDups.map fun sql => if 1 < batch.count sql then batch.count sql else 1).sum =
      batch.length ∧
    (∀ other : List String, other.eraseDups = batch.eraseDups →
      (∀ sql, other.count sql = batch.count sql) → Batch.describe other = Batch.describe batch) ∧
    ∀ first : String, batch.head? = some first → StatementKind.endsFirstWord first = true →
      ∀ {σ ε : Type} (t : Tap) (caller : Caller) (outside : σ → Except ε (List UInt64) × σ)
        (state : σ),
        t.CountsAs (t.executeBatch caller batch outside state).2.2 caller (Batch.describe batch)
          (.classify first) := by
  refine ⟨Batch.describe_eq batch, ?_, ?_, ?_⟩
  · have hshown : ∀ sql ∈ batch.eraseDups,
        (if 1 < batch.count sql then batch.count sql else 1) = batch.count sql := by
      intro sql hsql
      have hcomes := List.count_pos_iff.2 (List.mem_eraseDups.1 hsql)
      split <;> omega
    rw [List.map_congr_left hshown, Batch.sum_count]
  · intro other horder hcounts
    simp only [Batch.describe_eq, horder, hcounts]
  · intro first hfirst hended σ ε t caller outside state
    obtain ⟨rest, rfl⟩ := List.head?_eq_some_iff.1 hfirst
    exact t.countsAs_executeBatch caller rest hended outside state

/-- Two insertions around an update are written like two insertions before it. -/
theorem batch_is_described_insertTwice :
    let batch := ["insert into t values (1)", "update t set a = 2", "insert into t values (1)"]
    let other := ["insert into t values (1)", "insert into t values (1)", "update t set a = 2"]
    let t : Tap := {}
    let text := "insert into t values (1) /*2 times*/; update t set a = 2"
    Batch.describe batch = text ∧ Batch.describe other = text ∧
      t.CountsAs (t.executeBatch ⟨⟨1, none⟩, "shop:1"⟩ batch
          (fun s => ((.ok [1, 1, 1] : Except String _), s)) ()).2.2
        ⟨⟨1, none⟩, "shop:1"⟩ text .insert := by
  intro batch other t text
  obtain ⟨-, -, hsame, hkind⟩ := batch_is_described batch
  have htext : Batch.describe batch = text := by decide +kernel
  have hcounts : ∀ sql, other.count sql = batch.count sql := by
    intro sql
    simp only [other, batch, List.count_cons, List.count_nil]
    omega
  have hinsert := hkind "insert into t values (1)" rfl (by decide) t ⟨⟨1, none⟩, "shop:1"⟩
    (fun s => ((.ok [1, 1, 1] : Except String _), s)) ()
  rw [htext] at hsame hinsert
  exact ⟨htext, hsame other (by decide) hcounts, hinsert⟩

/-- A semicolon right behind the only word makes it another word, and it is no kind. -/
example : StatementKind.classify (Batch.describe ["select", "select 1"]) = .other := by decide

end Wiretap
