import Wiretap.Proofs.Policy.History
/-!
# What no answer of the policy depends on

Two histories of a policy book are **alike** when one can be made from the other by setting rules
of different patterns in another order, by writing hosts in another letter case, and by asking
more or fewer questions.  All of that happens inside a history, with anything before and after it,
so the one thing to show is that a change in the middle which leaves the last setting of every
pattern alone leaves it alone in the whole (`lastSet_touches_middle`).

`book_refines_history` puts this together with the refinement: a book that was new holds what its
history says, answers by the first pattern that was set, and answers as every alike history does.
-/

namespace Wiretap

namespace PolicyOp

/-- Histories that differ in what no answer depends on. -/
inductive Alike : List PolicyOp → List PolicyOp → Prop where
  | refl (ops : List PolicyOp) : Alike ops ops
  | symm {ops ops' : List PolicyOp} (h : Alike ops ops') : Alike ops' ops
  | trans {ops ops' ops'' : List PolicyOp} (h : Alike ops ops') (h' : Alike ops' ops'') :
      Alike ops ops''
  /-- Rules of different patterns may be set in either order. -/
  | swap (before after : List PolicyOp) {x y : PolicyOp}
      {p q : SocketPattern ⊕ DataSourcePattern} (hx : x.target? = some p)
      (hy : y.target? = some q) (hne : p ≠ q) :
      Alike (before ++ [x, y] ++ after) (before ++ [y, x] ++ after)
  /-- A host may be written in another letter case. -/
  | recase (before after : List PolicyOp) {x y : PolicyOp} (h : x.folded = y.folded) :
      Alike (before ++ [x] ++ after) (before ++ [y] ++ after)
  /-- A question may be asked or not. -/
  | ask (before after : List PolicyOp) {x : PolicyOp} (h : x.asks = true) :
      Alike (before ++ [x] ++ after) (before ++ [] ++ after)

/-- The two kinds of touch, told apart by their pattern; what is said of both is said once. -/
inductive Kind : {κ : Type} → (PolicyOp → Option (Touch κ)) → Prop where
  | sockets : Kind socketTouch?
  | dataSources : Kind dataSourceTouch?

variable {κ : Type} [DecidableEq κ] {touch? : PolicyOp → Option (Touch κ)}

/-- A change in the middle of a history that clears nothing, and leaves the last setting of every
pattern alone, leaves it alone in the whole history. -/
theorem lastSet_touches_middle {middle middle' : List PolicyOp} (hm : clear ∉ middle)
    (hm' : clear ∉ middle') {p : κ}
    (h : Touches.lastSet (middle.filterMap touch?) p =
      Touches.lastSet (middle'.filterMap touch?) p)
    (before after : List PolicyOp) :
    (touches touch? (before ++ middle ++ after)).lastSet p =
      (touches touch? (before ++ middle' ++ after)).lastSet p := by
  by_cases hafter : clear ∈ after
  · rw [touches, touches, sinceClear_append_of_mem hafter, sinceClear_append_of_mem hafter]
  · rw [touches, touches, sinceClear_append hafter, sinceClear_append hafter,
      sinceClear_append hm, sinceClear_append hm', List.filterMap_append, List.filterMap_append,
      List.filterMap_append, List.filterMap_append, Touches.lastSet_append,
      Touches.lastSet_append, Touches.lastSet_append, Touches.lastSet_append, h]

/-- An operation touches what its folded form touches. -/
theorem touch?_folded (hkind : Kind touch?) (op : PolicyOp) : touch? op.folded = touch? op := by
  have hfold : Text.lowerAscii ∘ Text.lowerAscii = Text.lowerAscii :=
    funext Text.lowerAscii_lowerAscii
  cases hkind <;> cases op <;>
    simp [folded, socketTouch?, dataSourceTouch?, SocketPattern.exact, SocketPattern.of,
      Text.lowerAscii_lowerAscii, hfold]

/-- A question sets nothing. -/
theorem lastSet_ask (hkind : Kind touch?) {op : PolicyOp} (h : op.asks = true) (p : κ) :
    Touches.lastSet ([op].filterMap touch?) p = none := by
  cases hkind <;> cases op <;>
    simp_all [asks, socketTouch?, dataSourceTouch?, Touches.lastSet, Touch.statusFor]

/-- Operations that set rules of different patterns touch different patterns. -/
theorem pattern_ne_of_target? (hkind : Kind touch?) {x y : PolicyOp}
    {p q : SocketPattern ⊕ DataSourcePattern} (hx : x.target? = some p) (hy : y.target? = some q)
    (hne : p ≠ q) {a b : Touch κ} (ha : touch? x = some a) (hb : touch? y = some b) :
    a.pattern ≠ b.pattern := by
  rintro heq
  apply hne
  cases hkind with
  | sockets =>
    cases x <;> cases hx <;> cases ha
    cases y <;> cases hy <;> cases hb
    exact congrArg Sum.inl heq
  | dataSources =>
    cases x <;> cases hx <;> cases ha
    cases y <;> cases hy <;> cases hb
    exact congrArg Sum.inr heq

/-- Rules of different patterns are last set whichever comes first. -/
theorem lastSet_swap (hkind : Kind touch?) {x y : PolicyOp}
    {p q : SocketPattern ⊕ DataSourcePattern} (hx : x.target? = some p) (hy : y.target? = some q)
    (hne : p ≠ q) (r : κ) :
    Touches.lastSet ([x, y].filterMap touch?) r =
      Touches.lastSet ([y, x].filterMap touch?) r := by
  cases ha : touch? x with
  | none => cases hb : touch? y <;> simp [ha, hb]
  | some a =>
    cases hb : touch? y with
    | none => simp [ha, hb]
    | some b =>
      have hdiff := pattern_ne_of_target? hkind hx hy hne ha hb
      have hxy : [x, y].filterMap touch? = [a] ++ [b] := by simp [ha, hb]
      have hyx : [y, x].filterMap touch? = [b] ++ [a] := by simp [ha, hb]
      have hone : ∀ t : Touch κ, Touches.lastSet [t] r = t.statusFor r := fun t => by
        simp only [Touches.lastSet, List.reverse_singleton, List.findSome?_singleton]
      rw [hxy, hyx, Touches.lastSet_concat, Touches.lastSet_concat, hone, hone,
        Touch.statusFor_or_comm hdiff]

/-- An operation that has a target does not clear. -/
theorem ne_clear_of_target? {op : PolicyOp} {p : SocketPattern ⊕ DataSourcePattern}
    (h : op.target? = some p) : op ≠ clear := by
  rintro rfl
  cases h

/-- **Alike histories set the same.**  Every pattern was last set to the same status. -/
theorem Alike.lastSet_touches (hkind : Kind touch?) {ops ops' : List PolicyOp} (h : Alike ops ops')
    (p : κ) : (touches touch? ops).lastSet p = (touches touch? ops').lastSet p := by
  induction h with
  | refl ops => rfl
  | symm _ ih => exact ih.symm
  | trans _ _ ih ih' => exact ih.trans ih'
  | swap before after hx hy hne =>
    have hxc := ne_clear_of_target? hx
    have hyc := ne_clear_of_target? hy
    refine lastSet_touches_middle ?_ ?_ (lastSet_swap hkind hx hy hne p) before after
    · simp [hxc.symm, hyc.symm]
    · simp [hxc.symm, hyc.symm]
  | @recase before after x y h =>
    have htouch : touch? x = touch? y := by
      rw [← touch?_folded hkind x, h, touch?_folded hkind y]
    by_cases hx : x = clear
    · have hy : y = clear := by
        subst hx
        cases y <;> simp_all [folded]
      rw [hx, hy]
    · have hy : y ≠ clear := by
        rintro rfl
        cases x <;> simp_all [folded]
      refine lastSet_touches_middle ?_ ?_ ?_ before after
      · simpa using Ne.symm hx
      · simpa using hy.symm
      · simp only [List.filterMap_cons, htouch, List.filterMap_nil]
  | @ask before after x h =>
    have hx : x ≠ clear := by
      rintro rfl
      cases h
    refine lastSet_touches_middle (by simpa using hx.symm) (by simp) ?_ before after
    rw [lastSet_ask hkind h]
    rfl

/-- Alike histories answer every question alike. -/
theorem Alike.answer_touches (hkind : Kind touch?) {ops ops' : List PolicyOp} (h : Alike ops ops')
    (chain : List κ) : (touches touch? ops).answer chain = (touches touch? ops').answer chain := by
  have hsame : (touches touch? ops).lastSet = (touches touch? ops').lastSet :=
    funext (h.lastSet_touches hkind)
  rw [Touches.answer, Touches.answer, hsame]

end PolicyOp

open PolicyOp

/-- **The policy book refines its history.**  Take a book without rules, kept on any disk or on
none, and use it in any way.  Then its tables hold exactly the patterns that were set or asked
about since it was last cleared, each with the status that was set for it last or else noted; every
answer is the status of the first pattern that was set among the exact one, the one of the host or
URL, the one of the port or user, and the one that leaves all open.  No other book with an alike
history answers differently, in whichever letter case the host is asked for. -/
theorem book_refines_history {b : Book} (hb : b.Bare) (ops : List PolicyOp) :
    (b.after ops).Refines ops ∧
      ∀ {b' : Book} {ops' : List PolicyOp}, b'.Bare → Alike ops ops' →
        (∀ {host host' : String} (port : UInt16), Text.sameFolded host host' = true →
          ((b.after ops).resolveSocket host port).1 =
            ((b'.after ops').resolveSocket host' port).1) ∧
        ∀ (url : String) (user : Option String),
          ((b.after ops).resolveDataSource url user).1 =
            ((b'.after ops').resolveDataSource url user).1 := by
  refine ⟨Book.refines_after hb ops, ?_⟩
  intro b' ops' hb' halike
  constructor
  · intro host host' port hhost
    have hchain : SocketPattern.chain host port = SocketPattern.chain host' port := by
      simp only [SocketPattern.chain, SocketPattern.of, Option.map_some,
        Text.sameFolded_iff.1 hhost]
    rw [Book.resolveSocket_after hb, Book.resolveSocket_after hb', hchain]
    exact halike.answer_touches .sockets _
  · intro url user
    rw [Book.resolveDataSource_after hb, Book.resolveDataSource_after hb']
    exact halike.answer_touches .dataSources _

/-- A rule for a host in capitals, then one for a port, against the same two the other way round
with a question in between: both close the socket, for the host goes before the port. -/
theorem book_refines_history_host_before_port :
    ({} : Book).Bare ∧
      Alike [.setSocket (some "DB") none .closed, .setSocket none (some 5432) .opened]
        [.setSocket none (some 5432) .opened, .resolveSocket "db" 5432,
          .setSocket (some "db") none .closed] ∧
      ((({} : Book).after [.setSocket (some "DB") none .closed,
        .setSocket none (some 5432) .opened]).resolveSocket "db" 5432).1 = .closed ∧
      ((({} : Book).after [.setSocket none (some 5432) .opened, .resolveSocket "db" 5432,
        .setSocket (some "db") none .closed]).resolveSocket "Db" 5432).1 = .closed := by
  have hbare : ({} : Book).Bare := ⟨rfl, rfl⟩
  have halike : Alike
      [.setSocket (some "DB") none .closed, .setSocket none (some 5432) .opened]
      [.setSocket none (some 5432) .opened, .resolveSocket "db" 5432,
        .setSocket (some "db") none .closed] := by
    have hcase := Alike.recase [] [.setSocket none (some 5432) .opened]
      (x := .setSocket (some "DB") none .closed) (y := .setSocket (some "db") none .closed)
      (by decide)
    have hswap := Alike.swap [] [] (x := .setSocket (some "db") none .closed)
      (y := .setSocket none (some 5432) .opened) rfl rfl (by decide)
    have hask := Alike.ask [.setSocket none (some 5432) .opened]
      [.setSocket (some "db") none .closed] (x := .resolveSocket "db" 5432) rfl
    exact (hcase.trans hswap).trans hask.symm
  obtain ⟨hrefines, hsame⟩ := book_refines_history hbare
    [.setSocket (some "DB") none .closed, .setSocket none (some 5432) .opened]
  have hanswer := hrefines.socketAnswers "db" 5432
  have hclosed : (PolicyOp.socketTouches [.setSocket (some "DB") none .closed,
      .setSocket none (some 5432) .opened]).answer (SocketPattern.chain "db" 5432) = .closed := by
    decide
  have hfolded : Text.sameFolded "db" "Db" = true := by decide
  have hother := (hsame hbare halike).1 5432 hfolded
  exact ⟨hbare, halike, hanswer.trans hclosed, hother.symm.trans (hanswer.trans hclosed)⟩

end Wiretap
