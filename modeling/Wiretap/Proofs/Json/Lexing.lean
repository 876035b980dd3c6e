import Mathlib.Data.List.Chain
import Wiretap.Json.Layout
/-!
# Spelled tokens are cut again

Many sources spell the same tokens: blanks may stand between two tokens, in front of the first and
behind the last.  `Spells` is this freedom, and the two layouts are two uses of it.  Cutting takes
it back.

* `lex_of_spells` — whatever source spells the tokens, it is cut into them;
* `spells_flatMap`, `spells_layFrom` — each of the two layouts spells the tokens that it is given.

A token can be cut again if it is **legible**: it is not stray, and if it is a number, its literal
is one that a number may have.  One thing more is asked of the order of tokens.  A number has no
sign at its end, so behind it must stand what cannot go on with it; in a tree that is a comma or
the end of a container (`NumbersEnd`).
-/

namespace Wiretap.Json

/-! ## Legible tokens -/

/-- What a literal comes to that begins with this character. -/
def NumberPart.first? (c : Char) : Option NumberPart :=
  if c = '-' then some .minus
  else if c = '0' then some .zero
  else if c.isDigit then some .whole
  else none

/-- What a literal comes to as a whole, where it can be read. -/
def NumberPart.of? : List Char → Option NumberPart
  | [] => none
  | c :: rest => (first? c).bind fun part => rest.foldlM next? part

namespace Token

/-- Whether a token is cut again where it is spelled. -/
def isLegible : Token → Bool
  | number literal => (NumberPart.of? literal.toList).any NumberPart.mayEnd
  | stray => false
  | _ => true

/-- Whether a token is a number. -/
def isNumber : Token → Bool
  | number _ => true
  | _ => false

/-- Whether a token stands behind a value: a comma or the end of a container. -/
def isCloser : Token → Bool
  | comma | rightBracket | rightBrace => true
  | _ => false

end Token

/-- Behind every number stands what ends it. -/
def NumbersEnd (tokens : List Token) : Prop :=
  tokens.IsChain fun left right => left.isNumber = true → right.isCloser = true

/-- A source **spells** tokens: they are spelled one after another, with blanks anywhere around
them. -/
inductive Spells : List Token → List Char → Prop
  | nothing : Spells [] []
  | blank {c : Char} {tokens : List Token} {cs : List Char} (hc : isBlank c = true)
      (rest : Spells tokens cs) : Spells tokens (c :: cs)
  | token {t : Token} {tokens : List Token} {cs : List Char} (ht : t.isLegible = true)
      (hend : t.isNumber = true → tokens.head?.all Token.isCloser = true)
      (rest : Spells tokens cs) : Spells (t :: tokens) (t.spell ++ cs)

/-! ## One token -/

theorem lexFrom_cons (mode : Mode) (u : Option Char) (rest : Source) :
    lexFrom mode (u :: rest) = (mode.step u).1 ++ lexFrom (mode.step u).2 rest := rfl

/-- A hexadecimal digit of an escape. -/
theorem step_hexDigit (content : Content) (more value : Nat) {d : Nat} (hd : d < 16) :
    (Mode.hex content more value).step (some (Text.hexDigit d)) =
      if more ≤ 1 then ([], .text (content.pushUnit (16 * value + d)))
      else ([], .hex content (more - 1) (16 * value + d)) := by
  simp only [Mode.step, Option.bind_some, Text.hexDigit?_hexDigit hd]

/-- A control character is spelled by its number. -/
theorem lexFrom_control {c : Char} (hc : c < ' ') (read : List Char) (rest : Source) :
    lexFrom (.text { reversed := read })
        ((['\\', 'u', '0', '0'] ++ Text.hexByte c.toNat.toUInt8).map some ++ rest) =
      lexFrom (.text { reversed := c :: read }) rest := by
  have hsmall : c.toNat < 32 := hc
  have hbyte : c.toNat.toUInt8.toNat = c.toNat := by
    rw [UInt8.toNat_ofNat']
    omega
  have hvalue : 16 * (16 * 0 + c.toNat / 16) + c.toNat % 16 = c.toNat := by omega
  have hunit : ({ reversed := read } : Content).pushUnit c.toNat = { reversed := c :: read } := by
    have hlead : ¬ (0xD800 ≤ c.toNat ∧ c.toNat ≤ 0xDBFF) := by omega
    have htrail : ¬ (0xDC00 ≤ c.toNat ∧ c.toNat ≤ 0xDFFF) := by omega
    simp only [Content.pushUnit, hlead, htrail, if_false, Content.push, Char.ofNat_toNat,
      Option.isNone_none, Bool.and_self]
  calc lexFrom (.text { reversed := read })
        ((['\\', 'u', '0', '0'] ++ Text.hexByte c.toNat.toUInt8).map some ++ rest)
      = lexFrom (.hex { reversed := read } 2 0)
          (some (Text.hexDigit (c.toNat / 16)) :: some (Text.hexDigit (c.toNat % 16)) :: rest) := by
        rw [Text.hexByte, hbyte]
        rfl
    _ = lexFrom (.text (({ reversed := read } : Content).pushUnit
          (16 * (16 * 0 + c.toNat / 16) + c.toNat % 16))) rest := by
        rw [lexFrom_cons, step_hexDigit _ _ _ (by omega), if_neg (by decide), lexFrom_cons,
          step_hexDigit _ _ _ (by omega), if_pos (by decide)]
        rfl
    _ = lexFrom (.text { reversed := c :: read }) rest := by rw [hvalue, hunit]

/-- What is spelled for a character inside a text is read as that character. -/
theorem lexFrom_spellChar (c : Char) (read : List Char) (rest : Source) :
    lexFrom (.text { reversed := read }) ((spellChar c).map some ++ rest) =
      lexFrom (.text { reversed := c :: read }) rest := by
  unfold spellChar
  by_cases hquote : c = '"'
  · subst hquote; rfl
  by_cases hslash : c = '\\'
  · subst hslash; rfl
  by_cases hback : c = '\x08'
  · subst hback; rfl
  by_cases hfeed : c = '\x0c'
  · subst hfeed; rfl
  by_cases hline : c = '\n'
  · subst hline; rfl
  by_cases hreturn : c = '\r'
  · subst hreturn; rfl
  by_cases htab : c = '\t'
  · subst htab; rfl
  simp only [hquote, hslash, hback, hfeed, hline, hreturn, htab, if_false]
  by_cases hcontrol : c < ' '
  · rw [if_pos hcontrol]
    exact lexFrom_control hcontrol read rest
  · rw [if_neg hcontrol]
    show lexFrom _ (some c :: rest) = _
    have hstep : (Mode.text { reversed := read }).step (some c) =
        ([], .text { reversed := c :: read }) := by
      simp only [Mode.step, hquote, hslash, hcontrol, if_false, Content.push, Option.isNone_none,
        Bool.and_self]
    rw [lexFrom_cons, hstep]
    rfl

/-- The characters of a text, one after another. -/
theorem lexFrom_spellChars (cs read : List Char) (rest : Source) :
    lexFrom (.text { reversed := read }) ((cs.flatMap spellChar).map some ++ rest) =
      lexFrom (.text { reversed := cs.reverse ++ read }) rest := by
  induction cs generalizing read with
  | nil => rfl
  | cons c cs ih =>
    rw [List.flatMap_cons, List.map_append, List.append_assoc, lexFrom_spellChar, ih]
    simp only [List.reverse_cons, List.append_assoc, List.singleton_append]

/-- A text is read up to its closing quote. -/
theorem lexFrom_text (s : String) (rest : Source) :
    lexFrom .between ((Token.text (some s)).spell.map some ++ rest) =
      .text (some s) :: lexFrom .between rest := by
  have hread : (Mode.text { reversed := s.toList.reverse ++ [] }).step (some '"') =
      ([.text (some s)], .between) := by
    simp [Mode.step, Content.text?]
  calc lexFrom .between ((Token.text (some s)).spell.map some ++ rest)
      = lexFrom (.text { reversed := [] })
          ((s.toList.flatMap spellChar).map some ++ (some '"' :: rest)) := by
        simp [Token.spell, lexFrom_cons, Mode.step, Mode.start, isBlank]
    _ = lexFrom (.text { reversed := s.toList.reverse ++ [] }) (some '"' :: rest) :=
        lexFrom_spellChars _ _ _
    _ = .text (some s) :: lexFrom .between rest := by
        rw [lexFrom_cons, hread]
        rfl

/-! ## Numbers -/

/-- What no number goes on with: nothing, a blank, a comma, or the end of a container. -/
def EndsNumber (rest : List Char) : Prop :=
  ∀ c ∈ rest.head?, isBlank c = true ∨ c = ',' ∨ c = ']' ∨ c = '\x7d'

/-- What ends a number does not go on with it. -/
theorem next?_of_endsNumber {c : Char} {rest : List Char} (h : EndsNumber (c :: rest))
    (part : NumberPart) : part.next? c = none := by
  have hc : isBlank c = true ∨ c = ',' ∨ c = ']' ∨ c = '\x7d' := h c rfl
  simp only [isBlank, Bool.or_eq_true, beq_iff_eq] at hc
  rcases hc with (((rfl | rfl) | rfl) | rfl) | rfl | rfl | rfl <;> cases part <;> rfl

/-- The rest of a number is read up to what ends it. -/
theorem lexFrom_numberRest {part last : NumberPart} {cs : List Char} (read : List Char)
    {rest : List Char} (hcs : cs.foldlM NumberPart.next? part = some last)
    (hlast : last.mayEnd = true) (hrest : EndsNumber rest) :
    lexFrom (.number part read) ((cs ++ rest).map some) =
      .number (String.ofList (read.reverse ++ cs)) :: lexFrom .between (rest.map some) := by
  induction cs generalizing part read with
  | nil =>
    obtain rfl : part = last := Option.some.inj hcs
    cases rest with
    | nil => simp [lexFrom, Mode.finish, Mode.numberToken, hlast]
    | cons c rest =>
      simp [lexFrom_cons, Mode.step, next?_of_endsNumber hrest, Mode.numberToken, hlast]
  | cons c cs ih =>
    rw [List.foldlM_cons] at hcs
    obtain ⟨next, hnext, hcs⟩ := Option.bind_eq_some_iff.1 hcs
    have hstep : (Mode.number part read).step (some c) = ([], .number next (c :: read)) := by
      simp only [Mode.step, hnext]
    rw [List.cons_append, List.map_cons, lexFrom_cons, hstep, List.nil_append,
      ih (c :: read) hcs]
    simp

/-- A digit is no blank. -/
theorem isBlank_of_isDigit {c : Char} (h : c.isDigit = true) : isBlank c = false := by
  rw [Bool.eq_false_iff]
  intro hblank
  simp only [isBlank, Bool.or_eq_true, beq_iff_eq] at hblank
  rcases hblank with ((rfl | rfl) | rfl) | rfl <;> exact absurd h (by decide)

/-- The first character of a number. -/
theorem start_of_first? {c : Char} {part : NumberPart} (h : NumberPart.first? c = some part) :
    Mode.start c = ([], .number part [c]) := by
  unfold NumberPart.first? at h
  by_cases hminus : c = '-'
  · subst hminus
    cases h
    rfl
  by_cases hzero : c = '0'
  · subst hzero
    cases h
    rfl
  simp only [hminus, hzero, if_false] at h
  by_cases hdigit : c.isDigit = true
  · rw [if_pos hdigit] at h
    cases h
    unfold Mode.start
    rw [isBlank_of_isDigit hdigit, if_neg Bool.false_ne_true]
    -- every sign with a rule of its own is no digit, or zero
    split
    all_goals first
      | exact absurd hdigit (by decide)
      | exact absurd rfl hzero
      | rw [if_pos hdigit]
  · rw [if_neg hdigit] at h
    cases h

/-- A number is read to its end, if what follows ends it. -/
theorem lexFrom_number {literal : String} {rest : List Char}
    (hlegible : (Token.number literal).isLegible = true) (hrest : EndsNumber rest) :
    lexFrom .between ((literal.toList ++ rest).map some) =
      .number literal :: lexFrom .between (rest.map some) := by
  obtain ⟨last, hlast, hend⟩ := (Option.any_eq_true _ _).1 hlegible
  cases hcs : literal.toList with
  | nil => simp [hcs, NumberPart.of?] at hlast
  | cons c cs =>
    rw [hcs, NumberPart.of?] at hlast
    obtain ⟨first, hfirst, hcs'⟩ := Option.bind_eq_some_iff.1 hlast
    have hliteral : String.ofList ([c].reverse ++ cs) = literal := by
      rw [List.reverse_singleton, List.singleton_append, ← hcs, String.ofList_toList]
    rw [List.cons_append, List.map_cons, lexFrom_cons]
    show (Mode.start c).1 ++ lexFrom (Mode.start c).2 _ = _
    rw [start_of_first? hfirst, List.nil_append, lexFrom_numberRest [c] hcs' hend hrest, hliteral]

/-- **One token.**  Where a legible token is spelled, and what is behind it does not go on with
it, that token is cut off. -/
theorem lexFrom_spell {t : Token} (ht : t.isLegible = true) {rest : List Char}
    (hend : t.isNumber = true → EndsNumber rest) :
    lexFrom .between ((t.spell ++ rest).map some) = t :: lexFrom .between (rest.map some) := by
  cases t with
  | number literal => exact lexFrom_number ht (hend rfl)
  | text content =>
    cases content with
    | none => rfl
    | some s =>
      rw [List.map_append]
      exact lexFrom_text s _
  | bool b => cases b <;> rfl
  | stray => cases ht
  | leftBrace | rightBrace | leftBracket | rightBracket | comma | colon | null => rfl

/-! ## All tokens -/

namespace Spells

variable {tokens : List Token} {cs : List Char}

/-- What stands behind a value does not go on with a number. -/
theorem endsNumber (h : Spells tokens cs) (hfirst : tokens.head?.all Token.isCloser = true) :
    EndsNumber cs := by
  cases h with
  | nothing =>
    intro c hc
    cases hc
  | blank hblank _ =>
    intro c hc
    cases hc
    exact .inl hblank
  | @token t tokens cs _ _ _ =>
    intro c hc
    replace hfirst : t.isCloser = true := hfirst
    cases t with
    | comma | rightBracket | rightBrace =>
      cases hc
      simp
    | leftBrace | leftBracket | colon | null | bool | number | text | stray => cases hfirst

/-- Blanks in front do not matter. -/
theorem blanks_append (h : Spells tokens cs) {bs : List Char} (hbs : ∀ c ∈ bs, isBlank c = true) :
    Spells tokens (bs ++ cs) := by
  induction bs with
  | nil => exact h
  | cons b bs ih =>
    exact .blank (hbs b List.mem_cons_self) (ih fun c hc => hbs c (List.mem_cons_of_mem b hc))

/-- Blanks at the end do not matter. -/
theorem append_blanks (h : Spells tokens cs) {bs : List Char} (hbs : ∀ c ∈ bs, isBlank c = true) :
    Spells tokens (cs ++ bs) := by
  induction h with
  | nothing => simpa using nothing.blanks_append hbs
  | blank hc _ ih => exact .blank hc ih
  | token ht hend _ ih =>
    rw [List.append_assoc]
    exact .token ht hend ih

end Spells

/-- **Spelled tokens are cut again**, by induction on the spelling. -/
theorem lex_of_spells {tokens : List Token} {cs : List Char} (h : Spells tokens cs) :
    lex (cs.map some) = tokens := by
  induction h with
  | nothing => rfl
  | @blank c tokens cs hc _ ih =>
    have hstart : Mode.start c = ([], .between) := by simp [Mode.start, hc]
    show (Mode.start c).1 ++ lexFrom (Mode.start c).2 (cs.map some) = tokens
    rw [hstart]
    exact ih
  | token ht hend hrest ih =>
    rw [lex, lexFrom_spell ht fun hnumber => hrest.endsNumber (hend hnumber)]
    exact congrArg _ ih

/-! ## The two layouts -/

namespace NumbersEnd

variable {t : Token} {tokens : List Token}

/-- A number is followed by what closes something, if it is followed by anything. -/
theorem head (h : NumbersEnd (t :: tokens)) (hnumber : t.isNumber = true) :
    tokens.head?.all Token.isCloser = true := by
  cases tokens with
  | nil => rfl
  | cons next tokens => exact (List.isChain_cons_cons.1 h).1 hnumber

theorem tail (h : NumbersEnd (t :: tokens)) : NumbersEnd tokens := List.IsChain.tail h

/-- In front of tokens may stand what is no number, or a number that they end. -/
theorem cons (h : NumbersEnd tokens)
    (hend : t.isNumber = true → tokens.head?.all Token.isCloser = true) :
    NumbersEnd (t :: tokens) := by
  cases tokens with
  | nil => exact .singleton t
  | cons next tokens => exact .cons_cons hend h

end NumbersEnd

/-- Tokens without anything between them. -/
theorem spells_flatMap {tokens : List Token} (hlegible : ∀ t ∈ tokens, t.isLegible = true)
    (hnumbers : NumbersEnd tokens) : Spells tokens (tokens.flatMap Token.spell) := by
  induction tokens with
  | nil => exact .nothing
  | cons t tokens ih =>
    have hrest := ih (fun u hu => hlegible u (List.mem_cons_of_mem t hu)) hnumbers.tail
    exact .token (hlegible t List.mem_cons_self) hnumbers.head hrest

/-- A new line is made of blanks. -/
theorem isBlank_of_mem_newLine {depth : Nat} {c : Char} (h : c ∈ newLine depth) :
    isBlank c = true := by
  rcases List.mem_cons.1 h with rfl | h
  · rfl
  · rw [List.eq_of_mem_replicate h]
    rfl

/-- What stands between tokens is blank. -/
theorem isBlank_of_mem_gap {depth : Nat} {left right : Token} {c : Char}
    (h : c ∈ gap depth left right) : isBlank c = true := by
  unfold gap at h
  split at h
  all_goals first
    | exact absurd h List.not_mem_nil
    | exact isBlank_of_mem_newLine h
    | rw [List.mem_singleton.1 h]; rfl

/-- Tokens in the pretty layout. -/
theorem spells_layFrom {tokens : List Token} (hlegible : ∀ t ∈ tokens, t.isLegible = true)
    (hnumbers : NumbersEnd tokens) (depth : Nat) : Spells tokens (layFrom depth tokens) := by
  induction tokens generalizing depth with
  | nil => exact .nothing
  | cons t tokens ih =>
    have ht := hlegible t List.mem_cons_self
    have hrest := ih (fun u hu => hlegible u (List.mem_cons_of_mem t hu)) hnumbers.tail
    cases tokens with
    | nil => simpa [layFrom] using Spells.token ht hnumbers.head .nothing
    | cons next tokens =>
      rw [layFrom, List.append_assoc]
      exact .token ht hnumbers.head
        ((hrest (depthAfter depth t)).blanks_append fun _ hc => isBlank_of_mem_gap hc)

end Wiretap.Json
