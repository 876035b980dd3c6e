import Wiretap.Proofs.Json.Lexing
/-!
# A tree grows again from its tokens

A tree is written down as its tokens, in either layout, and read by growing a tree from tokens.
Growing has a stack of open containers where the tree has nesting, so the statement that carries
the induction is about any stack: behind the tokens of a tree, reading goes on as it does behind
any complete value (`growFrom_tokens`).

* `spells_compact`, `spells_pretty` — each layout of a legible tree spells the tokens of the tree;
* `read_of_spells` — a source that spells the tokens of a tree is read as that tree, with nothing
  behind it.
-/

namespace Wiretap.Json

/-- What growing comes to when a value is complete inside the given containers. -/
def settled (value : Json) (frames : List Frame) (rest : List Token) : Json × List Token :=
  match frames with
  | [] => (value, rest)
  | f :: outer => growFrom (f.give value :: outer) .more rest

/-- A token that completes a value. -/
theorem growFrom_of_settle {frames outer : List Frame} {expect : Expect} {t : Token} {value : Json}
    (h : growStep frames expect t = settleValue value outer) (rest : List Token) :
    growFrom frames expect (t :: rest) = settled value outer rest := by
  rw [growFrom, h]
  cases outer <;> rfl

/-- A token that the tree grows on from. -/
theorem growFrom_of_growing {frames frames' : List Frame} {expect expect' : Expect} {t : Token}
    (h : growStep frames expect t = .growing frames' expect') (rest : List Token) :
    growFrom frames expect (t :: rest) = growFrom frames' expect' rest := by
  rw [growFrom, h]

/-- Tokens are taken alike in two places that take the first of them alike. -/
theorem growFrom_congr {frames : List Frame} {expect expect' : Expect} {t : Token}
    (h : growStep frames expect t = growStep frames expect' t) (rest : List Token) :
    growFrom frames expect (t :: rest) = growFrom frames expect' (t :: rest) := by
  rw [growFrom, growFrom, h]

/-- No value begins like the end of an array. -/
theorem exists_tokens (tree : Json) :
    ∃ t later, tree.tokens = t :: later ∧ t ≠ .rightBracket := by
  cases tree <;> simp [tokens]

/-- The first of several items stands before a comma. -/
theorem itemTokens_cons (item next : Json) (items : List Json) :
    itemTokens (item :: next :: items) = item.tokens ++ .comma :: itemTokens (next :: items) := by
  rw [itemTokens]
  simp

/-- The first of several fields stands before a comma. -/
theorem fieldTokens_cons (name : Option String) (value : Json) (next : Option String × Json)
    (fields : List (Option String × Json)) :
    fieldTokens ((name, value) :: next :: fields) =
      .text name :: .colon :: (value.tokens ++ .comma :: fieldTokens (next :: fields)) := by
  rw [fieldTokens]
  · rfl
  · simp

/-- The tokens of some items do not begin with the closing bracket. -/
theorem exists_itemTokens (item : Json) (items : List Json) :
    ∃ t later, itemTokens (item :: items) = t :: later ∧ t ≠ .rightBracket := by
  obtain ⟨t, later, hitem, ht⟩ := item.exists_tokens
  cases items with
  | nil => exact ⟨t, later, by rw [itemTokens, hitem], ht⟩
  | cons next items => exact ⟨t, _, by rw [itemTokens_cons, hitem]; rfl, ht⟩

/-- The tokens of some fields begin with a name. -/
theorem exists_fieldTokens (name : Option String) (value : Json)
    (fields : List (Option String × Json)) :
    ∃ later, fieldTokens ((name, value) :: fields) = .text name :: later := by
  cases fields with
  | nil => exact ⟨_, by rw [fieldTokens]⟩
  | cons next fields => exact ⟨_, fieldTokens_cons name value next fields⟩

mutual

/-- **The tokens of a tree are read as that tree**, whatever is open around it and whatever stands
behind it. -/
theorem growFrom_tokens (tree : Json) (h : .stray ∉ tree.tokens) (frames : List Frame)
    (rest : List Token) :
    growFrom frames .value (tree.tokens ++ rest) = settled tree frames rest := by
  match tree with
  | null | bool _ | number _ | text _ =>
    rw [tokens]
    exact growFrom_of_settle rfl rest
  | broken => simp [tokens] at h
  | array [] =>
    rw [tokens, itemTokens]
    exact (growFrom_of_growing rfl _).trans (growFrom_of_settle rfl rest)
  | array (item :: items) =>
    have hitems : .stray ∉ itemTokens (item :: items) := by
      intro hmem
      exact h (by simp [tokens, hmem])
    obtain ⟨t, later, hfirst, ht⟩ := exists_itemTokens item items
    calc growFrom frames .value ((array (item :: items)).tokens ++ rest)
        = growFrom (.array [] :: frames) .firstItem
            (itemTokens (item :: items) ++ .rightBracket :: rest) := by
          rw [tokens, List.append_assoc, List.cons_append]
          exact growFrom_of_growing rfl _
      _ = growFrom (.array [] :: frames) .value
            (itemTokens (item :: items) ++ .rightBracket :: rest) := by
          rw [hfirst]
          have hstep : growStep (.array [] :: frames) .firstItem t =
              growStep (.array [] :: frames) .value t := if_neg ht
          exact growFrom_congr hstep _
      _ = settled (array (item :: items)) frames rest :=
          growFrom_itemTokens item items hitems [] frames rest
  | object [] =>
    rw [tokens, fieldTokens]
    exact (growFrom_of_growing rfl _).trans (growFrom_of_settle rfl rest)
  | object ((name, value) :: fields) =>
    have hfields : .stray ∉ fieldTokens ((name, value) :: fields) := by
      intro hmem
      exact h (by simp [tokens, hmem])
    obtain ⟨later, hfirst⟩ := exists_fieldTokens name value fields
    calc growFrom frames .value ((object ((name, value) :: fields)).tokens ++ rest)
        = growFrom (.object [] none :: frames) .firstName
            (fieldTokens ((name, value) :: fields) ++ .rightBrace :: rest) := by
          rw [tokens, List.append_assoc, List.cons_append]
          exact growFrom_of_growing rfl _
      _ = growFrom (.object [] none :: frames) .name
            (fieldTokens ((name, value) :: fields) ++ .rightBrace :: rest) := by
          rw [hfirst]
          exact growFrom_congr rfl _
      _ = settled (object ((name, value) :: fields)) frames rest :=
          growFrom_fieldTokens name value fields hfields [] frames rest
termination_by sizeOf tree

/-- Items one after another, up to the end of their array. -/
theorem growFrom_itemTokens (item : Json) (items : List Json)
    (h : .stray ∉ itemTokens (item :: items)) (read : List Json) (outer : List Frame)
    (rest : List Token) :
    growFrom (.array read :: outer) .value (itemTokens (item :: items) ++ .rightBracket :: rest) =
      settled (array (read.reverse ++ item :: items)) outer rest := by
  match items with
  | [] =>
    rw [itemTokens] at h
    rw [itemTokens, growFrom_tokens item h, ← List.reverse_cons]
    exact growFrom_of_settle rfl rest
  | next :: items =>
    rw [itemTokens_cons, List.mem_append, not_or, List.mem_cons, not_or] at h
    obtain ⟨hitem, -, hitems⟩ := h
    rw [itemTokens_cons, List.append_assoc, growFrom_tokens item hitem]
    calc growFrom (.array (item :: read) :: outer) .more
          (.comma :: itemTokens (next :: items) ++ .rightBracket :: rest)
        = growFrom (.array (item :: read) :: outer) .value
            (itemTokens (next :: items) ++ .rightBracket :: rest) := growFrom_of_growing rfl _
      _ = settled (array ((item :: read).reverse ++ next :: items)) outer rest :=
          growFrom_itemTokens next items hitems (item :: read) outer rest
      _ = settled (array (read.reverse ++ item :: next :: items)) outer rest := by
          rw [List.reverse_cons, List.append_assoc, List.singleton_append]
termination_by sizeOf item + sizeOf items

/-- Fields one after another, up to the end of their object. -/
theorem growFrom_fieldTokens (name : Option String) (value : Json)
    (fields : List (Option String × Json)) (h : .stray ∉ fieldTokens ((name, value) :: fields))
    (read : List (Option String × Json)) (outer : List Frame) (rest : List Token) :
    growFrom (.object read none :: outer) .name
        (fieldTokens ((name, value) :: fields) ++ .rightBrace :: rest) =
      settled (object (read.reverse ++ (name, value) :: fields)) outer rest := by
  have hname : ∀ later, growFrom (.object read none :: outer) .name
      (.text name :: .colon :: later) = growFrom (.object read name :: outer) .value later :=
    fun later => (growFrom_of_growing rfl _).trans (growFrom_of_growing rfl _)
  match fields with
  | [] =>
    have hvalue : .stray ∉ value.tokens := by
      intro hmem
      exact h (by simp [fieldTokens, hmem])
    rw [fieldTokens, List.cons_append, List.cons_append, hname, growFrom_tokens value hvalue,
      ← List.reverse_cons]
    exact growFrom_of_settle rfl rest
  | (nextName, nextValue) :: fields =>
    have hvalue : .stray ∉ value.tokens := by
      intro hmem
      exact h (by simp [fieldTokens_cons, hmem])
    have hfields : .stray ∉ fieldTokens ((nextName, nextValue) :: fields) := by
      intro hmem
      exact h (by simp [fieldTokens_cons, hmem])
    rw [fieldTokens_cons, List.cons_append, List.cons_append, hname, List.append_assoc,
      growFrom_tokens value hvalue]
    calc growFrom (.object ((name, value) :: read) none :: outer) .more
          (.comma :: fieldTokens ((nextName, nextValue) :: fields) ++ .rightBrace :: rest)
        = growFrom (.object ((name, value) :: read) none :: outer) .name
            (fieldTokens ((nextName, nextValue) :: fields) ++ .rightBrace :: rest) :=
          growFrom_of_growing rfl _
      _ = settled (object (((name, value) :: read).reverse ++ (nextName, nextValue) :: fields))
            outer rest :=
          growFrom_fieldTokens nextName nextValue fields hfields ((name, value) :: read) outer rest
      _ = settled (object (read.reverse ++ (name, value) :: (nextName, nextValue) :: fields))
            outer rest := by
          rw [List.reverse_cons, List.append_assoc, List.singleton_append]
termination_by sizeOf value + sizeOf fields

end

/-! ## Numbers in a tree -/

/-- A name and a colon before tokens do not matter to their numbers. -/
theorem NumbersEnd.behindName {tokens : List Token} (h : NumbersEnd tokens)
    (name : Option String) : NumbersEnd (.text name :: .colon :: tokens) := by
  have hcolon : NumbersEnd (.colon :: tokens) := h.cons nofun
  exact hcolon.cons nofun

mutual

/-- Behind every number of a tree, and behind the tree, stands what ends it. -/
theorem numbersEnd_tokens (tree : Json) {rest : List Token} (hrest : NumbersEnd rest)
    (hend : rest.head?.all Token.isCloser = true) : NumbersEnd (tree.tokens ++ rest) := by
  match tree with
  | null | bool _ | number _ | text _ | broken =>
    rw [tokens]
    exact hrest.cons fun _ => hend
  | array items =>
    have hclose : NumbersEnd (.rightBracket :: rest) := hrest.cons nofun
    have hitems : NumbersEnd (itemTokens items ++ .rightBracket :: rest) :=
      numbersEnd_itemTokens items hclose rfl
    rw [tokens, List.append_assoc, List.cons_append]
    exact hitems.cons nofun
  | object fields =>
    have hclose : NumbersEnd (.rightBrace :: rest) := hrest.cons nofun
    have hfields : NumbersEnd (fieldTokens fields ++ .rightBrace :: rest) :=
      numbersEnd_fieldTokens fields hclose rfl
    rw [tokens, List.append_assoc, List.cons_append]
    exact hfields.cons nofun

/-- Each number among items ends where it should, if what follows them closes something. -/
theorem numbersEnd_itemTokens (items : List Json) {rest : List Token} (hrest : NumbersEnd rest)
    (hend : rest.head?.all Token.isCloser = true) : NumbersEnd (itemTokens items ++ rest) := by
  match items with
  | [] => exact hrest
  | [item] =>
    rw [itemTokens]
    exact numbersEnd_tokens item hrest hend
  | item :: next :: items =>
    have hitems : NumbersEnd (itemTokens (next :: items) ++ rest) :=
      numbersEnd_itemTokens (next :: items) hrest hend
    have hcomma : NumbersEnd (.comma :: (itemTokens (next :: items) ++ rest)) := hitems.cons nofun
    rw [itemTokens_cons, List.append_assoc]
    exact numbersEnd_tokens item hcomma rfl

theorem numbersEnd_fieldTokens (fields : List (Option String × Json)) {rest : List Token}
    (hrest : NumbersEnd rest) (hend : rest.head?.all Token.isCloser = true) :
    NumbersEnd (fieldTokens fields ++ rest) := by
  match fields with
  | [] => exact hrest
  | [(name, value)] =>
    rw [fieldTokens]
    exact (numbersEnd_tokens value hrest hend).behindName name
  | (name, value) :: next :: fields =>
    have hfields : NumbersEnd (fieldTokens (next :: fields) ++ rest) :=
      numbersEnd_fieldTokens (next :: fields) hrest hend
    have hcomma : NumbersEnd (.comma :: (fieldTokens (next :: fields) ++ rest)) :=
      hfields.cons nofun
    rw [fieldTokens_cons, List.cons_append, List.cons_append, List.append_assoc]
    exact (numbersEnd_tokens value hcomma rfl).behindName name

end

/-- Behind every number of a tree stands what ends it. -/
theorem numbersEnd (tree : Json) : NumbersEnd tree.tokens := by
  have hall : NumbersEnd (tree.tokens ++ []) := tree.numbersEnd_tokens .nil rfl
  rwa [List.append_nil] at hall

/-! ## Legible trees -/

/-- A tree is legible if all its tokens are: it is not broken, and its numbers are numbers. -/
def IsLegible (tree : Json) : Prop := ∀ t ∈ tree.tokens, t.isLegible = true

namespace IsLegible

/-- A legible tree has no stray token. -/
theorem stray_notMem {tree : Json} (h : tree.IsLegible) : .stray ∉ tree.tokens :=
  fun hmem => Bool.false_ne_true (h _ hmem)

/-- Both truth values are legible. -/
theorem bool (b : Bool) : (Json.bool b).IsLegible := by
  simp [IsLegible, tokens, Token.isLegible]

/-- Texts are legible. -/
theorem text (content : Option String) : (Json.text content).IsLegible := by
  simp [IsLegible, tokens, Token.isLegible]

/-- An array of legible items is legible. -/
theorem array {items : List Json} (h : ∀ item ∈ items, item.IsLegible) :
    (Json.array items).IsLegible := by
  have hitems : ∀ t ∈ itemTokens items, t.isLegible = true := by
    induction items with
    | nil => simp [itemTokens]
    | cons item items ih =>
      have hitem : item.IsLegible := h item List.mem_cons_self
      have hrest := ih fun other hother => h other (List.mem_cons_of_mem item hother)
      cases items with
      | nil =>
        rw [itemTokens]
        exact hitem
      | cons next items =>
        rw [itemTokens_cons]
        intro t ht
        rcases List.mem_append.1 ht with ht | ht
        · exact hitem t ht
        · rcases List.mem_cons.1 ht with rfl | ht
          · rfl
          · exact hrest t ht
  intro t ht
  simp only [tokens, List.mem_append, List.mem_cons, List.not_mem_nil, or_false] at ht
  rcases ht with (rfl | ht) | rfl
  · rfl
  · exact hitems t ht
  · rfl

/-- An object of legible values is legible. -/
theorem object {fields : List (Option String × Json)}
    (h : ∀ field ∈ fields, field.2.IsLegible) : (Json.object fields).IsLegible := by
  have hfields : ∀ t ∈ fieldTokens fields, t.isLegible = true := by
    induction fields with
    | nil => simp [fieldTokens]
    | cons field fields ih =>
      obtain ⟨name, value⟩ := field
      have hvalue : value.IsLegible := h (name, value) List.mem_cons_self
      have hrest := ih fun other hother => h other (List.mem_cons_of_mem _ hother)
      cases fields with
      | nil =>
        intro t ht
        simp only [fieldTokens, List.mem_cons] at ht
        rcases ht with rfl | rfl | ht
        · rfl
        · rfl
        · exact hvalue t ht
      | cons next fields =>
        rw [fieldTokens_cons]
        intro t ht
        simp only [List.mem_cons, List.mem_append] at ht
        rcases ht with rfl | rfl | ht | rfl | ht
        · rfl
        · rfl
        · exact hvalue t ht
        · rfl
        · exact hrest t ht
  intro t ht
  simp only [tokens, List.mem_append, List.mem_cons, List.not_mem_nil, or_false] at ht
  rcases ht with (rfl | ht) | rfl
  · rfl
  · exact hfields t ht
  · rfl

end IsLegible

/-! ## Reading what was written -/

/-- The compact layout spells the tokens of the tree. -/
theorem spells_compact {tree : Json} (h : tree.IsLegible) :
    Spells tree.tokens tree.compact.toList := by
  rw [compact, String.toList_ofList]
  exact spells_flatMap h tree.numbersEnd

/-- The pretty layout spells the tokens of the tree. -/
theorem spells_pretty {tree : Json} (h : tree.IsLegible) :
    Spells tree.tokens tree.pretty.toList := by
  rw [pretty, String.toList_ofList]
  exact spells_layFrom h tree.numbersEnd 0

/-- **A source that spells the tokens of a tree is read as that tree.** -/
theorem read_of_spells {tree : Json} (h : tree.IsLegible) {cs : List Char}
    (hcs : Spells tree.tokens cs) : read (cs.map some) = ⟨tree, true⟩ := by
  have hgrown : growFrom [] .value tree.tokens = (tree, []) := by
    simpa [settled] using tree.growFrom_tokens h.stray_notMem [] []
  rw [read, lex_of_spells hcs, hgrown]
  rfl

end Wiretap.Json
