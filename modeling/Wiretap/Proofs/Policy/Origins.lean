import Wiretap.Proofs.Policy.Merging
/-!
# Where the rules of a registry come from

The rows of a registry are kept in no order that a caller may rely on, and a ruling takes the first
of the rows that tie.  That it is well defined all the same is owed to what the registry holds: for
every socket, and for every data source, at most one of its patterns of each specificity covers it,
so that there is no tie.  This rests on two things, that no pattern has two rows and that hosts are
in lower case; and it has to outlast every way in which rules are written, documents with hosts of
any spelling among them.

A rule is written by a setting, by a document or by a lookup, and stays until its pattern is written
again or the registry is emptied.  A lookup never writes over a rule.

* `Book.used` is a book after any use, with operations that fail left out.
* `RuleTable.rules_use` says what one use writes (`Writing`), and `RuleTable.get?_rules_used` what
  is found after all of them: the rule of the last that wrote to the pattern (`Origin`).
* `OneOfEach` is what makes a ruling free of the order of the rows (`ruling_of_perm`).

`registry_stays_in_order` is the main statement.
-/

namespace Wiretap

/-- What is done with a policy book, in every way there is. -/
inductive Use where
  /-- A registry without rules takes the place of the old one. -/
  | new
  | fromDocument (document : Document)
  | fromJson (text : String)
  | openFile (path : String)
  /-- A document is merged. -/
  | readFrom (bytes : ByteArray)
  | perform (op : PolicyOp)
  | setPersistent (on : Bool)
  | setStorage (path : Option String)
  | save
  | saveTo (path : String)
  /-- Somebody else changes the disk. -/
  | elsewhere (disk : Disk)

namespace Book

/-- The book that came of something, or the old one where that failed. -/
def orKeep {ε : Type} (b : Book) : Except ε Book → Book
  | .ok came => came
  | .error _ => b

/-- The book after one use. -/
def use (b : Book) : Use → Book
  | .new => { b with registry := {} }
  | .fromDocument document => { b with registry := .ofDocument document }
  | .fromJson text => b.orKeep <| (Registry.fromJson text).map fun r => { b with registry := r }
  | .openFile path => b.orKeep (b.openFile path)
  | .readFrom bytes => b.orKeep (b.readFrom bytes)
  | .perform op => b.perform op
  | .setPersistent on => b.setPersistent on
  | .setStorage path => b.setStorage path
  | .save => b.save.2
  | .saveTo path => (b.saveTo path).2
  | .elsewhere disk => { b with disk := disk }

/-- The book after one use after another. -/
def used (b : Book) (uses : List Use) : Book := uses.foldl use b

/-- Every use makes a book that comes about by use. -/
theorem Reachable.use {b : Book} (h : b.Reachable) (u : Use) : (b.use u).Reachable := by
  cases u with
  | new => exact .new b.disk
  | fromDocument document => exact .ofDocument document b.disk
  | fromJson text =>
    rw [Book.use]
    cases hread : Registry.fromJson text with
    | error e => exact h
    | ok r => exact .fromJson hread b.disk
  | openFile path =>
    rw [Book.use]
    cases hopen : b.openFile path with
    | error e => exact h
    | ok opened => exact h.openFile hopen
  | readFrom bytes =>
    rw [Book.use, Book.readFrom]
    cases hread : b.registry.readFrom bytes with
    | error e => exact h
    | ok r => exact h.readFrom hread
  | perform op => exact h.perform op
  | setPersistent on => exact h.setPersistent on
  | setStorage path => exact h.setStorage path
  | save => exact h.save
  | saveTo path => exact h.saveTo path
  | elsewhere disk => exact h.elsewhere disk

/-- A book stays reachable in use. -/
theorem Reachable.used {b : Book} (h : b.Reachable) (uses : List Use) :
    (b.used uses).Reachable := by
  induction uses generalizing b with
  | nil => exact h
  | cons u rest ih => exact ih (h.use u)

end Book

/-! ## Who wrote a rule -/

/-- What is written to a table of rules. -/
inductive Writing (κ : Type) where
  /-- The table is emptied. -/
  | afresh
  | touch (touch : Touch κ)
  /-- A record of a document. -/
  | record (pattern : κ) (rule : Rule)

/-- Who wrote a rule: a setting, a lookup, or the record of a document. -/
inductive Origin where
  | setting (status : Status)
  | lookup
  | record (rule : Rule)
  deriving DecidableEq, Repr

/-- The rule that was written. -/
def Origin.rule : Origin → Rule
  | setting status => { status := status }
  | lookup => .noted
  | record rule => rule

namespace Writing

variable {κ : Type} [DecidableEq κ]

/-- The table after a writing. -/
def apply (rules : Table κ Rule) : Writing κ → Table κ Rule
  | afresh => .empty
  | touch t => t.apply rules
  | record p rule => rules.insert p rule

/-- Who wrote the rule of a pattern, after a writing.  A lookup writes only where there is no
rule. -/
def origin (p : κ) (before : Option Origin) : Writing κ → Option Origin
  | afresh => none
  | touch (.set q status) => if q = p then some (.setting status) else before
  | touch (.seen q) => if q = p then some (before.getD .lookup) else before
  | record q rule => if q = p then some (.record rule) else before

/-- A rule that is put in the place of a pattern is found there, and nowhere else. -/
theorem get?_insert_of_origin {rules : Table κ Rule} {p q : κ} {before after : Option Origin}
    {rule : Rule} (h : rules.get? p = before.map Origin.rule)
    (hafter : after.map Origin.rule = some rule) :
    (rules.insert q rule).get? p = (if q = p then after else before).map Origin.rule := by
  by_cases hq : q = p
  · subst hq
    rw [if_pos rfl, hafter, Table.get?_insert_self]
  · rw [if_neg hq, ← h, Table.get?_insert_other _ (beq_eq_false_iff_ne.2 hq)]

/-- **One writing.**  It keeps it that the table has what was written. -/
theorem get?_apply {rules : Table κ Rule} {p : κ} {before : Option Origin}
    (h : rules.get? p = before.map Origin.rule) (w : Writing κ) :
    (w.apply rules).get? p = (w.origin p before).map Origin.rule := by
  cases w with
  | afresh => rfl
  | record q rule => exact get?_insert_of_origin h rfl
  | touch t =>
    cases t with
    | set q status => exact get?_insert_of_origin h rfl
    | seen q =>
      rw [apply, origin, Touch.apply]
      by_cases hq : q = p
      · -- whether there is a rule already is whether somebody wrote one
        subst hq
        rw [if_pos rfl, Table.contains_eq_isSome, h]
        cases before with
        | none => exact Table.get?_insert_self _ _ _
        | some origin => exact h
      · rw [if_neg hq]
        split
        · exact h
        · rw [← h, Table.get?_insert_other _ (beq_eq_false_iff_ne.2 hq)]

/-- Who wrote the rule of a pattern in the end. -/
def originOf (writings : List (Writing κ)) (p : κ) : Option Origin :=
  writings.foldl (fun before w => w.origin p before) none

/-- **Writings one after another,** to a table without rules. -/
theorem get?_foldl_apply (writings : List (Writing κ)) (p : κ) :
    (writings.foldl Writing.apply .empty).get? p = (originOf writings p).map Origin.rule := by
  induction writings using List.reverseRecOn with
  | nil => rfl
  | append_singleton earlier w ih =>
    rw [originOf, List.foldl_concat, List.foldl_concat]
    exact get?_apply ih w

end Writing

namespace RuleTable

variable {κ : Type} [DecidableEq κ] (t : RuleTable κ)

/-- What a document writes that is merged. -/
def merged (document : Document) : List (Writing κ) :=
  (t.records document).map fun row => .record row.1 row.2

/-- What a document writes that takes the place of the rules there are. -/
def replaced (document : Document) : List (Writing κ) := .afresh :: t.merged document

/-- What one use of a book writes; a document that cannot be read writes nothing. -/
def writings (b : Book) : Use → List (Writing κ)
  | .new | .perform .clear => [.afresh]
  | .perform op => (t.touch? op).toList.map .touch
  | .fromDocument document => t.replaced document
  | .fromJson text => (Document.ofText text).toOption.elim [] t.replaced
  | .openFile path => (b.disk.readDocument (.ofText path)).toOption.elim [] t.replaced
  | .readFrom bytes => (Document.ofBytes bytes).toOption.elim [] t.merged
  | .setPersistent _ | .setStorage _ | .save | .saveTo _ | .elsewhere _ => []

/-- To merge a document is to write its records over the rules. -/
theorem foldl_merged (rules : Table κ Rule) (document : Document) :
    (t.merged document).foldl Writing.apply rules = rules.insertAll (t.records document) := by
  rw [merged, List.foldl_map]
  rfl

/-- To replace by a document leaves no rules but its own. -/
theorem foldl_replaced (rules : Table κ Rule) (document : Document) :
    (t.replaced document).foldl Writing.apply rules = t.rules (.ofDocument document) := by
  rw [replaced, List.foldl_cons, foldl_merged, Registry.ofDocument, t.rules_apply, t.rules_new]
  rfl

/-- **One use.** -/
theorem rules_use (b : Book) (u : Use) :
    t.rules (b.use u).registry = (t.writings b u).foldl Writing.apply (t.rules b.registry) := by
  cases u with
  | new => exact t.rules_new
  | fromDocument document => exact (t.foldl_replaced _ document).symm
  | fromJson text =>
    rw [Book.use, writings, Registry.fromJson]
    cases Document.ofText text with
    | error e => rfl
    | ok document => exact (t.foldl_replaced _ document).symm
  | openFile path =>
    rw [Book.use, writings, Book.openFile]
    cases b.disk.readDocument (.ofText path) with
    | error e => rfl
    | ok document => exact (t.rules_eq _ _ _).trans (t.foldl_replaced _ document).symm
  | readFrom bytes =>
    rw [Book.use, writings, Book.readFrom, Registry.readFrom]
    cases Document.ofBytes bytes with
    | error e => rfl
    | ok document => exact (t.rules_apply _ _).trans (t.foldl_merged _ document).symm
  | perform op =>
    by_cases hclear : op = .clear
    · subst hclear
      exact t.rules_clear b.registry
    · have hwritings : t.writings b (.perform op) = (t.touch? op).toList.map .touch := by
        cases op <;> first | rfl | exact absurd rfl hclear
      rw [hwritings, List.foldl_map]
      exact t.rules_perform b hclear
  | setPersistent on =>
    rw [Book.use, Book.setPersistent, Book.registry_keep]
    exact t.rules_eq _ _ _
  | setStorage path => exact t.rules_eq _ _ _
  | save => rw [Book.use, Book.registry_save]; rfl
  | saveTo path => rw [Book.use, Book.registry_saveTo]; rfl
  | elsewhere disk => rfl

/-- What a whole history writes. -/
def written (b : Book) : List Use → List (Writing κ)
  | [] => []
  | u :: rest => t.writings b u ++ written (b.use u) rest

/-- **A whole history.** -/
theorem rules_used (b : Book) (uses : List Use) :
    t.rules (b.used uses).registry =
      (t.written b uses).foldl Writing.apply (t.rules b.registry) := by
  induction uses generalizing b with
  | nil => rfl
  | cons u rest ih =>
    have hstep : b.used (u :: rest) = (b.use u).used rest := rfl
    rw [hstep, ih, rules_use, written, List.foldl_append]

/-- Who wrote the rule of a pattern, in the history of a book that began without rules. -/
def origin (disk : Disk) (uses : List Use) : κ → Option Origin :=
  Writing.originOf (t.written { disk } uses)

/-- The rule of a pattern after any use is the rule of the pattern's origin. -/
theorem get?_rules_used (disk : Disk) (uses : List Use) (p : κ) :
    (t.rules (({ disk } : Book).used uses).registry).get? p =
      (t.origin disk uses p).map Origin.rule := by
  have hnew : t.rules ({ disk } : Book).registry = .empty := t.rules_new
  rw [rules_used, hnew, Writing.get?_foldl_apply, origin]

end RuleTable

/-! ## The order of the rows -/

section AtMostOne

variable {α : Type*} {l : List α}

/-- A list of at most one has no two that differ. -/
theorem eq_of_length_le_one (h : l.length ≤ 1) {a b : α} (ha : a ∈ l) (hb : b ∈ l) : a = b := by
  match l with
  | [] => cases ha
  | [c] => rw [List.mem_singleton.1 ha, List.mem_singleton.1 hb]
  | c :: d :: rest => exact absurd h (by simp)

/-- A list in which no two differ, and none is there twice, has at most one. -/
theorem length_le_one_of_nodup (hnodup : l.Nodup) (h : ∀ a ∈ l, ∀ b ∈ l, a = b) :
    l.length ≤ 1 := by
  match l with
  | [] => exact Nat.zero_le 1
  | [c] => exact Nat.le_refl 1
  | c :: d :: rest =>
    have hsame : c = d := h c List.mem_cons_self d (List.mem_cons_of_mem c List.mem_cons_self)
    rw [hsame] at hnodup
    exact absurd List.mem_cons_self (List.nodup_cons.1 hnodup).1

/-- Where a quantity falls along a list, no two members have it alike. -/
theorem eq_of_falls {quantity : α → Nat} (hfall : l.Pairwise fun a b => quantity b < quantity a)
    {a b : α} (ha : a ∈ l) (hb : b ∈ l) (h : quantity a = quantity b) : a = b := by
  by_contra hne
  have hapart : l.Pairwise fun a b => quantity a ≠ quantity b :=
    hfall.imp fun hless => (Nat.ne_of_lt hless).symm
  have : Std.Symm fun a b : α => quantity a ≠ quantity b := ⟨fun _ _ => Ne.symm⟩
  exact hapart.forall ha hb hne h

end AtMostOne

namespace Registry

variable {κ : Type} {covers : κ → Bool} {specificity : κ → Nat}

/-- Of the patterns that cover what is asked about there is at most one of each specificity. -/
def OneOfEach (covers : κ → Bool) (specificity : κ → Nat) (patterns : List κ) : Prop :=
  ∀ rank, (patterns.filter fun p => covers p && specificity p == rank).length ≤ 1

/-- A pattern is in a rank if it covers what is asked for and is as specific as the rank. -/
theorem mem_rank {rank : Nat} {patterns : List κ} {p : κ} :
    p ∈ patterns.filter (fun p => covers p && specificity p == rank) ↔
      p ∈ patterns ∧ covers p = true ∧ specificity p = rank := by
  rw [List.mem_filter, Bool.and_eq_true, beq_iff_eq]

/-- Patterns of a chain are one of each. -/
theorem oneOfEach_of_chain {patterns chain : List κ} (hnodup : patterns.Nodup)
    (hchain : ∀ p ∈ patterns, covers p = true → p ∈ chain)
    (hfall : chain.Pairwise fun p q => specificity q < specificity p) :
    OneOfEach covers specificity patterns := by
  intro rank
  refine length_le_one_of_nodup (hnodup.filter _) fun p hp q hq => ?_
  obtain ⟨hp, hpcovers, hprank⟩ := mem_rank.1 hp
  obtain ⟨hq, hqcovers, hqrank⟩ := mem_rank.1 hq
  exact eq_of_falls hfall (hchain p hp hpcovers) (hchain q hq hqcovers) (hprank.trans hqrank.symm)

/-- Rows of patterns that tie are one. -/
theorem OneOfEach.eq_of_tie {rows : List (κ × Rule)}
    (h : OneOfEach covers specificity (rows.map Prod.fst)) {a b : κ × Rule} (ha : a ∈ rows)
    (hb : b ∈ rows) (hacovers : covers a.1 = true) (hbcovers : covers b.1 = true)
    (htie : specificity a.1 = specificity b.1) : a = b := by
  have hlength := h (specificity b.1)
  rw [List.filter_map, List.length_map] at hlength
  refine eq_of_length_le_one hlength (List.mem_filter.2 ⟨ha, ?_⟩) (List.mem_filter.2 ⟨hb, ?_⟩)
  · rw [Function.comp_apply, hacovers, htie, BEq.rfl]
    rfl
  · rw [Function.comp_apply, hbcovers, BEq.rfl]
    rfl

/-- **Without ties the order of the rows does not matter.** -/
theorem ruling_of_perm {rows rows' : List (κ × Rule)}
    (hone : OneOfEach covers specificity (rows.map Prod.fst)) (hperm : rows'.Perm rows) :
    ruling covers specificity rows' = ruling covers specificity rows := by
  have hdeciding : (deciding covers rows').Perm (deciding covers rows) := hperm.filter _
  by_cases hnone : deciding covers rows = []
  · have hnone' : deciding covers rows' = [] := (hnone ▸ hdeciding).eq_nil
    rw [ruling_of_deciding_eq_nil hnone, ruling_of_deciding_eq_nil hnone']
  · have hnone' : deciding covers rows' ≠ [] := fun h => hnone (h ▸ hdeciding.symm).eq_nil
    -- both walks end at a row that is as specific as any, so at rows that tie
    obtain ⟨best, hbest, hruling, hmost⟩ := exists_ruling specificity hnone
    obtain ⟨best', hbest', hruling', hmost'⟩ := exists_ruling specificity hnone'
    have htie : specificity best'.1 = specificity best.1 :=
      Nat.le_antisymm (hmost best' (hdeciding.mem_iff.1 hbest'))
        (hmost' best (hdeciding.mem_iff.2 hbest))
    obtain ⟨hmem, hdecides⟩ := List.mem_filter.1 hbest
    obtain ⟨hmem', hdecides'⟩ := List.mem_filter.1 (hdeciding.mem_iff.1 hbest')
    rw [Bool.and_eq_true] at hdecides hdecides'
    rw [hruling, hruling', hone.eq_of_tie hmem' hmem hdecides'.2 hdecides.2 htie]

end Registry

/-! ## The order of a registry -/

/-- There is no capital of ASCII in a folded text. -/
theorem Text.isUpper_of_mem_lowerAscii {s : String} {c : Char} (h : c ∈ (lowerAscii s).toList) :
    c.isUpper = false := by
  rw [lowerAscii, String.toList_ofList] at h
  obtain ⟨d, -, rfl⟩ := List.mem_map.1 h
  refine decide_eq_false (p := 65 ≤ d.toLower.toNat ∧ d.toLower.toNat ≤ 90) ?_
  rw [toNat_toLower]
  grind

namespace Registry

/-- What a registry keeps to, however it came about. -/
structure InOrder (r : Registry) : Prop where
  /-- Hosts are kept in lower case. -/
  lower : ∀ p ∈ r.sockets.keys, ∀ host ∈ p.host, ∀ c ∈ host.toList, c.isUpper = false
  socketKeys : r.sockets.keys.Nodup
  dataSourceKeys : r.dataSources.keys.Nodup
  /-- No two patterns that cover one socket tie. -/
  socketRanks : ∀ host port,
    OneOfEach (·.covers host port) SocketPattern.specificity r.sockets.keys
  dataSourceRanks : ∀ url user,
    OneOfEach (·.covers url user) DataSourcePattern.specificity r.dataSources.keys
  /-- In whatever order the rows are walked, the status is one. -/
  socketStatus : ∀ host port rows, rows.Perm r.sockets.rows →
    ruling (·.covers host port) SocketPattern.specificity rows = r.socketStatus host port
  dataSourceStatus : ∀ url user rows, rows.Perm r.dataSources.rows →
    ruling (·.covers url user) DataSourcePattern.specificity rows = r.dataSourceStatus url user

/-- Lower case is all that it takes. -/
theorem inOrder_of_isFolded {r : Registry} (h : r.IsFolded) : r.InOrder := by
  have hfolded : ∀ p ∈ r.sockets.keys, p.IsFolded := fun p hp => h p ((Table.mem_keys_iff _ p).1 hp)
  have hsockets : ∀ host port,
      OneOfEach (·.covers host port) SocketPattern.specificity r.sockets.keys := by
    intro host port
    refine oneOfEach_of_chain r.sockets.nodup_keys (fun p hp hcovers => ?_)
      (SocketPattern.chain_falls host port)
    have hp' := hfolded p hp
    rw [SocketPattern.IsFolded] at hp'
    rw [← hp'] at hcovers ⊢
    exact SocketPattern.covers_of_iff.1 hcovers
  have hdataSources : ∀ url user,
      OneOfEach (·.covers url user) DataSourcePattern.specificity r.dataSources.keys :=
    fun url user => oneOfEach_of_chain r.dataSources.nodup_keys
      (fun _ _ hcovers => DataSourcePattern.covers_iff_mem_chain.1 hcovers)
      (DataSourcePattern.chain_falls url user)
  exact {
    lower := by
      intro p hp host hhost c hc
      have hp' := congrArg SocketPattern.host (hfolded p hp)
      rw [SocketPattern.of, Option.mem_def.1 hhost, Option.map_some, Option.some.injEq] at hp'
      rw [← hp'] at hc
      exact Text.isUpper_of_mem_lowerAscii hc
    socketKeys := r.sockets.nodup_keys
    dataSourceKeys := r.dataSources.nodup_keys
    socketRanks := hsockets
    dataSourceRanks := hdataSources
    socketStatus := fun host port _ hperm => ruling_of_perm (hsockets host port) hperm
    dataSourceStatus := fun url user _ hperm => ruling_of_perm (hdataSources url user) hperm }

end Registry

namespace RuleTable

variable {κ : Type} [DecidableEq κ]

/-- Every rule of a table is there for a reason. -/
structure Traced (t : RuleTable κ) (r : Registry) (origin : κ → Option Origin) : Prop where
  /-- A pattern has the rule that was written for it last. -/
  found : ∀ p, (t.rules r).get? p = (origin p).map Origin.rule
  /-- What a lookup noted is open. -/
  noted : ∀ p, origin p = some .lookup →
    (t.rules r).get? p = some { status := .opened, discovered := true }
  /-- What is marked was noted by a lookup, or is the record of a document, mark and all. -/
  marked : ∀ p rule, (t.rules r).get? p = some rule → rule.discovered = true →
    origin p = some .lookup ∨ origin p = some (.record rule)

/-- After any use, the rules of a registry are traced to their origins. -/
theorem traced_used (t : RuleTable κ) (disk : Disk) (uses : List Use) :
    t.Traced (({ disk } : Book).used uses).registry (t.origin disk uses) where
  found := t.get?_rules_used disk uses
  noted p h := by
    rw [get?_rules_used, h]
    rfl
  marked p rule hrule hmark := by
    rw [get?_rules_used] at hrule
    obtain ⟨origin, horigin, rfl⟩ := Option.map_eq_some_iff.1 hrule
    cases origin with
    | setting status => cases hmark
    | lookup => exact .inl horigin
    | record rule => exact .inr horigin

end RuleTable

/-- **A registry stays in order.**  Whatever is done with a book that began without rules, and
whatever the disk does: hosts are in lower case, no pattern has two rules, no two patterns that
cover one socket or data source are equally specific, so that no status depends on the order of the
rows; and every rule can be traced to the setting, the lookup or the record that wrote it. -/
theorem registry_stays_in_order (disk : Disk) (uses : List Use) :
    let r := (({ disk } : Book).used uses).registry
    r.InOrder ∧
      RuleTable.sockets.Traced r (RuleTable.sockets.origin disk uses) ∧
      RuleTable.dataSources.Traced r (RuleTable.dataSources.origin disk uses) := by
  intro r
  have hreachable : (({ disk } : Book).used uses).Reachable := (Book.Reachable.new disk).used uses
  exact ⟨Registry.inOrder_of_isFolded hreachable.isFolded, RuleTable.sockets.traced_used disk uses,
    RuleTable.dataSources.traced_used disk uses⟩

/-- Of two records whose hosts differ in their letters the second stays; a lookup of another socket
is noted, and one of theirs is not. -/
example :
    let r := (({} : Book).used
      [.fromDocument { sockets := [⟨some "DB", some 5432, .closed, false⟩,
        ⟨some "db", some 5432, .opened, false⟩] },
        .perform (.resolveSocket "Db" 5432), .perform (.resolveSocket "Cache" 6379)]).registry
    r.sockets.rows = [(⟨some "db", some 5432⟩, ⟨.opened, false⟩),
      (⟨some "cache", some 6379⟩, ⟨.opened, true⟩)] := by
  decide +kernel

end Wiretap
