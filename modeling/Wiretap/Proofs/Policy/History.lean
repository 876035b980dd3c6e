import Wiretap.Proofs.Policy.Tables
/-!
# The policy book refines its history

A policy book is used by setting rules, asking for statuses and emptying it, in any order.  Asking
writes to the book as well: it notes what was asked about.  This file reads the whole book off the
list of operations, and says what that list may be changed into without any answer changing.

* `Book.Refines` says that the tables hold exactly what the touches say, and that every answer is
  the status of the first pattern, from the exact one to the one that leaves all open, that was
  set.
* `Alike` histories differ in what no answer depends on: the order in which different patterns
  were set, the letter case of hosts, and the questions that were asked.

`book_refines_history` is the main statement.  It speaks of a book that is kept on a disk or not,
whatever the disk does.
-/

namespace Wiretap

/-- The patterns that a question about a socket may be decided by, the most specific first. -/
def SocketPattern.chain (host : String) (port : UInt16) : List SocketPattern :=
  [.of (some host) (some port), .of (some host) none, .of none (some port), .of none none]

/-- The patterns that a question about a data source may be decided by, the most specific first.
Without a user the exact pattern is the one of the URL, and no pattern of a user is about it. -/
def DataSourcePattern.chain (url : String) : Option String → List DataSourcePattern
  | some user => [⟨some url, some user⟩, ⟨some url, none⟩, ⟨none, some user⟩, ⟨none, none⟩]
  | none => [⟨some url, none⟩, ⟨none, none⟩]

/-- The status of the first pattern of a chain that was set; open where none was. -/
def Touches.answer {κ : Type u} [DecidableEq κ] (touches : Touches κ) (chain : List κ) : Status :=
  (chain.findSome? touches.lastSet).getD .opened

namespace Book

/-- A book without rules, as a new one is. -/
structure Bare (b : Book) : Prop where
  sockets : b.registry.sockets = .empty
  dataSources : b.registry.dataSources = .empty

/-- **Refinement.**  A book holds what a history says and answers by it. -/
structure Refines (b : Book) (ops : List PolicyOp) : Prop where
  /-- A socket pattern has a row exactly if it was set or asked about. -/
  socketKeys : ∀ p, b.registry.sockets.contains p = true ↔
    p ∈ (PolicyOp.socketTouches ops).map Touch.pattern
  /-- A row holds the status that was set last, and is noted if none was. -/
  socketRules : ∀ p, b.registry.sockets.get? p = (PolicyOp.socketTouches ops).rule? p
  dataSourceKeys : ∀ p, b.registry.dataSources.contains p = true ↔
    p ∈ (PolicyOp.dataSourceTouches ops).map Touch.pattern
  dataSourceRules : ∀ p,
    b.registry.dataSources.get? p = (PolicyOp.dataSourceTouches ops).rule? p
  /-- The first pattern that was set answers. -/
  socketAnswers : ∀ host port, (b.resolveSocket host port).1 =
    (PolicyOp.socketTouches ops).answer (SocketPattern.chain host port)
  dataSourceAnswers : ∀ url user, (b.resolveDataSource url user).1 =
    (PolicyOp.dataSourceTouches ops).answer (DataSourcePattern.chain url user)

/-- **The rules of a book are those of its history,** of either kind. -/
theorem rules_after {b : Book} (hb : b.Bare) (ops : List PolicyOp) :
    (b.after ops).registry.sockets = (PolicyOp.socketTouches ops).rules ∧
      (b.after ops).registry.dataSources = (PolicyOp.dataSourceTouches ops).rules :=
  ⟨RuleTable.sockets.rules_after hb.sockets ops,
    RuleTable.dataSources.rules_after hb.dataSources ops⟩

end Book

/-! ## Answers -/

/-- A text in lower case stays as it is. -/
theorem Text.lowerAscii_lowerAscii (s : String) : lowerAscii (lowerAscii s) = lowerAscii s := by
  have hchar : ∀ c : Char, c.toLower.toLower = c.toLower := by
    intro c
    refine Char.toNat_inj.1 ?_
    rw [toNat_toLower, toNat_toLower]
    grind
  simp [lowerAscii, Function.comp_def, hchar]

namespace SocketPattern

/-- A pattern whose host is folded covers a socket exactly if it is in the socket's chain. -/
theorem covers_of_iff {host' : Option String} {port' : Option UInt16} {host : String}
    {port : UInt16} :
    (of host' port').covers host port = true ↔ of host' port' ∈ chain host port := by
  have hhost : ((of host' port').host.all (Text.sameFolded · host)) = true ↔
      host'.map Text.lowerAscii = none ∨ host'.map Text.lowerAscii = some (Text.lowerAscii host) := by
    cases host' <;> simp [of, Text.sameFolded_iff, Text.lowerAscii_lowerAscii]
  have hport : (port'.all (· == port)) = true ↔ port' = none ∨ port' = some port := by
    cases port' <;> simp
  rw [covers, Bool.and_eq_true, hhost]
  show _ ∧ port'.all (· == port) = true ↔ _
  rw [hport]
  simp only [chain, of, List.mem_cons, List.not_mem_nil, or_false, SocketPattern.mk.injEq,
    Option.map_some, Option.map_none]
  grind

/-- The chain of a socket falls in specificity. -/
theorem chain_falls (host : String) (port : UInt16) :
    (chain host port).Pairwise fun p q => q.specificity < p.specificity := by
  simp [chain, of, specificity]

end SocketPattern

namespace DataSourcePattern

/-- A pattern covers a data source exactly if it is in the data source's chain. -/
theorem covers_iff_mem_chain {p : DataSourcePattern} {url : String} {user : Option String} :
    p.covers url user = true ↔ p ∈ chain url user := by
  obtain ⟨url', user'⟩ := p
  have hurl : (url'.all (· == url)) = true ↔ url' = none ∨ url' = some url := by
    cases url' <;> simp
  have huser : (user'.all (some · == user)) = true ↔ user' = none ∨ user' = user := by
    cases user' <;> simp
  show (url'.all (· == url) && user'.all (some · == user)) = true ↔ _
  rw [Bool.and_eq_true, hurl, huser]
  cases user with
  | none =>
    simp only [chain, List.mem_cons, List.not_mem_nil, or_false, DataSourcePattern.mk.injEq]
    grind
  | some user =>
    simp only [chain, List.mem_cons, List.not_mem_nil, or_false, DataSourcePattern.mk.injEq]
    grind

/-- The chain of a data source falls in specificity. -/
theorem chain_falls (url : String) (user : Option String) :
    (chain url user).Pairwise fun p q => q.specificity < p.specificity := by
  cases user <;> simp [chain, specificity]

end DataSourcePattern

namespace Book

/-- Every socket pattern of a history has its host folded. -/
theorem exists_of_mem_socketTouches {ops : List PolicyOp} {p : SocketPattern}
    (h : p ∈ (PolicyOp.socketTouches ops).map Touch.pattern) :
    ∃ host port, p = .of host port := by
  obtain ⟨touch, htouch, rfl⟩ := List.mem_map.1 h
  obtain ⟨op, -, hop⟩ := List.mem_filterMap.1 htouch
  cases op with
  | setSocket host port status =>
    cases hop
    exact ⟨host, port, rfl⟩
  | resolveSocket host port =>
    cases hop
    exact ⟨some host, some port, rfl⟩
  | setDataSource url user status => cases hop
  | resolveDataSource url user => cases hop
  | clear => cases hop

/-- What a socket's question is answered with, read off the history. -/
theorem resolveSocket_after {b : Book} (hb : b.Bare) (ops : List PolicyOp) (host : String)
    (port : UInt16) :
    ((b.after ops).resolveSocket host port).1 =
      (PolicyOp.socketTouches ops).answer (SocketPattern.chain host port) := by
  show Registry.ruling _ _ (b.after ops).registry.sockets.rows = _
  rw [(rules_after hb ops).1, Touches.answer, ← Touches.setIn_rules]
  refine Registry.ruling_eq_firstSet (fun p hp => ?_) (SocketPattern.chain_falls host port)
  obtain ⟨host', port', rfl⟩ := exists_of_mem_socketTouches (Touches.contains_rules.1 hp)
  exact SocketPattern.covers_of_iff

/-- What a data source's question is answered with, read off the history. -/
theorem resolveDataSource_after {b : Book} (hb : b.Bare) (ops : List PolicyOp) (url : String)
    (user : Option String) :
    ((b.after ops).resolveDataSource url user).1 =
      (PolicyOp.dataSourceTouches ops).answer (DataSourcePattern.chain url user) := by
  show Registry.ruling _ _ (b.after ops).registry.dataSources.rows = _
  rw [(rules_after hb ops).2, Touches.answer, ← Touches.setIn_rules]
  exact Registry.ruling_eq_firstSet (fun p _ => DataSourcePattern.covers_iff_mem_chain)
    (DataSourcePattern.chain_falls url user)

/-- A book refines its history. -/
theorem refines_after {b : Book} (hb : b.Bare) (ops : List PolicyOp) :
    (b.after ops).Refines ops where
  socketKeys p := by
    rw [(rules_after hb ops).1, Touches.contains_rules]
  socketRules p := by rw [(rules_after hb ops).1, Touches.get?_rules]
  dataSourceKeys p := by
    rw [(rules_after hb ops).2, Touches.contains_rules]
  dataSourceRules p := by rw [(rules_after hb ops).2, Touches.get?_rules]
  socketAnswers := resolveSocket_after hb ops
  dataSourceAnswers := resolveDataSource_after hb ops

end Book

end Wiretap
