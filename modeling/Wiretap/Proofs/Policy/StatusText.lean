import Wiretap.Proofs.Policy.Codec
import Wiretap.Proofs.Text.Case
/-!
# Which texts are statuses

A status is read from the words it is written with, in any letter case and with blanks around them
and around the number of milliseconds, or from a code.  `Status.Reads` says which texts these are
and what each of them says, without a word on how they are read; `Status.HasArgument` is what a text
looks like that has a word and parentheses.

The forms exclude each other, as they begin with different characters.  So reading goes through
them in some order, and the order does not matter (`parse_eq_ok_iff`).
-/

namespace Wiretap

/-- Text in which there are blanks only. -/
def Text.AllBlank (s : String) : Prop := ∀ c ∈ s.toList, isBlank c = true

/-- A text of blanks is blank. -/
theorem Text.allBlank_of_all {s : String} (h : s.toList.all isBlank = true) : AllBlank s :=
  List.all_eq_true.1 h

namespace Status

/-- **What a text says.**  A number in parentheses is one of thirty-two bits, a code one of
sixty-four with a sign. -/
inductive Reads (text : String) : Status → Prop where
  | opened (h : Text.sameFolded (Text.trim text) "OPEN" = true) : Reads text .opened
  | closed (h : Text.sameFolded (Text.trim text) "CLOSED" = true) : Reads text .closed
  | throttle {argument : String} {ms : UInt32}
      (h : Text.sameFolded (Text.trim text) s!"THROTTLE({argument})" = true)
      (hms : Text.Unsigned (Text.trim argument).toList ms.toNat) : Reads text (.throttle ms)
  | refuseAfter {argument : String} {ms : UInt32}
      (h : Text.sameFolded (Text.trim text) s!"REFUSE_AFTER({argument})" = true)
      (hms : Text.Unsigned (Text.trim argument).toList ms.toNat) : Reads text (.refuseAfter ms)
  | code {n : Int} (h : Text.Signed (Text.trim text).toList n) (hleast : -2 ^ 63 ≤ n)
      (hgreatest : n < 2 ^ 63) : Reads text (.ofCode n)

/-- The text has a word that takes a number, and parentheses behind it. -/
def HasArgument (text : String) : Prop :=
  ∃ argument : String, Text.sameFolded (Text.trim text) s!"THROTTLE({argument})" = true ∨
    Text.sameFolded (Text.trim text) s!"REFUSE_AFTER({argument})" = true

/-- The written form of a status with more text on both sides of its number. -/
def spaced (left right : String) : Status → String
  | opened => "OPEN"
  | closed => "CLOSED"
  | throttle ms => s!"THROTTLE({left}{ms}{right})"
  | refuseAfter ms => s!"REFUSE_AFTER({left}{ms}{right})"

/-- A status spaced by nothing is the status. -/
theorem spaced_empty (s : Status) : s.spaced "" "" = s.text := by
  cases s with
  | opened => rfl
  | closed => rfl
  | throttle ms =>
    show "THROTTLE(" ++ "" ++ toString ms ++ "" ++ ")" = "THROTTLE(" ++ toString ms ++ ")"
    rw [String.append_empty, String.append_empty]
  | refuseAfter ms =>
    show "REFUSE_AFTER(" ++ "" ++ toString ms ++ "" ++ ")" = "REFUSE_AFTER(" ++ toString ms ++ ")"
    rw [String.append_empty, String.append_empty]

/-! ## Words with parentheses -/

variable {text word : String} {cs argument : List Char}

/-- What has no opening parenthesis has no argument. -/
theorem argument?_of_notMem (h : '(' ∉ cs) : argument? word cs = none := by
  rw [Option.eq_none_iff_forall_ne_some]
  intro argument hsome
  rw [argument?_eq_some_iff.1 hsome] at h
  exact h (by simp)

/-- The text as it is compared with the words. -/
def upper (text : String) : List Char := (Text.trimChars text.toList).map Char.toUpper

/-- A text is a word up to case and blanks if its upper case is the word. -/
theorem sameFolded_trim_iff {w : String} (hw : w.toList.map Char.toUpper = w.toList) :
    Text.sameFolded (Text.trim text) w = true ↔ upper text = w.toList := by
  rw [Text.sameFolded_iff_toUpper, hw, Text.trim, String.toList_ofList, upper]

/-- A text has a word with an argument exactly if reading finds the argument in capitals. -/
theorem sameFolded_argument_iff {w argument : String}
    (hw : w.toList = word.toList ++ '(' :: (argument.toList ++ [')']))
    (hword : word.toList.map Char.toUpper = word.toList) :
    Text.sameFolded (Text.trim text) w = true ↔
      argument? word (upper text) = some (argument.toList.map Char.toUpper) := by
  have hcapitals : w.toList.map Char.toUpper =
      word.toList ++ '(' :: (argument.toList.map Char.toUpper ++ [')']) := by
    rw [hw, List.map_append, List.map_cons, List.map_append, hword]
    rfl
  rw [Text.sameFolded_iff_toUpper, hcapitals, argument?_eq_some_iff, Text.trim,
    String.toList_ofList, upper]

/-- A text is a delay in transfers if its upper case is the word with an argument. -/
theorem sameFolded_throttle_iff {argument : String} :
    Text.sameFolded (Text.trim text) s!"THROTTLE({argument})" = true ↔
      argument? "THROTTLE" (upper text) = some (argument.toList.map Char.toUpper) := by
  refine sameFolded_argument_iff ?_ rfl
  show ("THROTTLE(" ++ argument ++ ")").toList = _
  simp

/-- A text is a delay before a refusal if its upper case is the word with an argument. -/
theorem sameFolded_refuseAfter_iff {argument : String} :
    Text.sameFolded (Text.trim text) s!"REFUSE_AFTER({argument})" = true ↔
      argument? "REFUSE_AFTER" (upper text) = some (argument.toList.map Char.toUpper) := by
  refine sameFolded_argument_iff ?_ rfl
  show ("REFUSE_AFTER(" ++ argument ++ ")").toList = _
  simp

/-- The number in parentheses is the same in any letter case. -/
theorem uint32?_argument {argument : String} {ms : UInt32} :
    Text.uint32? (Text.trimChars (argument.toList.map Char.toUpper)) = some ms ↔
      Text.Unsigned (Text.trim argument).toList ms.toNat := by
  rw [Text.uint32?_eq_some_iff, Text.trimChars_map_toUpper, Text.unsigned_map_toUpper, Text.trim,
    String.toList_ofList]

/-- What a number begins with is none of the words, and no letter of one. -/
theorem upper_ne_of_signed {n : Int} (h : Text.Signed (Text.trim text).toList n) {w : List Char}
    (hw : w.head?.any Text.beginsNumber = false) : upper text ≠ w := by
  obtain ⟨c, rest, hcs, hc⟩ := h.exists_head
  rw [Text.trim, String.toList_ofList] at hcs
  intro heq
  have hsame : c.toUpper = c := by
    refine Text.toUpper_eq_self ?_
    rw [Text.isAlpha_toUpper]
    rw [Text.beginsNumber, Bool.or_eq_true, Bool.or_eq_true, beq_iff_eq, beq_iff_eq] at hc
    rcases hc with (rfl | rfl) | hdigit
    · decide
    · decide
    · exact Text.not_isAlpha_of_isDigit hdigit
  rw [← heq, upper, hcs, List.map_cons, List.head?_cons, Option.any_some, hsame, hc] at hw
  cases hw

/-- A number is no word with an argument. -/
theorem argument?_of_signed (word : String) {n : Int}
    (h : Text.Signed (Text.trim text).toList n) (hnonempty : word.toList ≠ [])
    (hword : word.toList.head?.any Text.beginsNumber = false) :
    argument? word (upper text) = none := by
  rw [Option.eq_none_iff_forall_ne_some]
  intro argument hsome
  have hhead : (word.toList ++ '(' :: (argument ++ [')'])).head?.any Text.beginsNumber = false := by
    rw [List.head?_append_of_ne_nil _ hnonempty]
    exact hword
  exact upper_ne_of_signed h hhead (argument?_eq_some_iff.1 hsome)

/-! ## Reading -/

/-- What reading makes of what stands in parentheses. -/
def delayed (text : String) (status : UInt32 → Status) (argument : List Char) :
    Except StatusError Status :=
  match Text.uint32? (Text.trimChars argument) with
  | some ms => .ok (status ms)
  | none => .error (.invalidDelay (Text.trim text))

/-- An argument that is a number gives a status with this delay. -/
theorem delayed_of_some {status : UInt32 → Status} {ms : UInt32}
    (h : Text.uint32? (Text.trimChars argument) = some ms) :
    delayed text status argument = .ok (status ms) := by
  rw [delayed, h]

/-- An argument is a number, or the delay is invalid. -/
theorem delayed_cases (text : String) (status : UInt32 → Status) (argument : List Char) :
    (∃ ms, Text.uint32? (Text.trimChars argument) = some ms ∧
      delayed text status argument = .ok (status ms)) ∨
      delayed text status argument = .error (.invalidDelay (Text.trim text)) := by
  cases hread : Text.uint32? (Text.trimChars argument) with
  | some ms => exact .inl ⟨ms, rfl, delayed_of_some hread⟩
  | none =>
    right
    rw [delayed, hread]

/-- Reading looks for one form after another. -/
theorem parse_eq (text : String) :
    parse text =
      if upper text = "OPEN".toList then .ok opened
      else if upper text = "CLOSED".toList then .ok closed
      else
        match argument? "THROTTLE" (upper text) with
        | some argument => delayed text throttle argument
        | none =>
          match argument? "REFUSE_AFTER" (upper text) with
          | some argument => delayed text refuseAfter argument
          | none =>
            match Text.int64? (Text.trim text).toList with
            | some code => .ok (ofCode code)
            | none => .error (.unknown (Text.trim text)) := by
  have hdelay : ∀ (status : UInt32 → Status) (argument : List Char),
      Except.map status (match Text.uint32? (Text.trimChars argument) with
        | some ms => .ok ms
        | none => .error (.invalidDelay (Text.trim text))) = delayed text status argument := by
    intro status argument
    rw [delayed]
    cases Text.uint32? (Text.trimChars argument) with
    | some ms => rfl
    | none => rfl
  have htrim : (Text.trim text).toList = Text.trimChars text.toList := String.toList_ofList
  rw [htrim, parse, parseChars, upper]
  refine if_congr Iff.rfl rfl (if_congr Iff.rfl rfl ?_)
  cases argument? "THROTTLE" ((Text.trimChars text.toList).map Char.toUpper) with
  | some argument => exact hdelay throttle argument
  | none =>
    cases argument? "REFUSE_AFTER" ((Text.trimChars text.toList).map Char.toUpper) with
    | some argument => exact hdelay refuseAfter argument
    | none => rfl

/-- **Every text is read as what it says.** -/
theorem parse_of_reads {s : Status} (h : Reads text s) : parse text = .ok s := by
  have hopened : '(' ∉ "OPEN".toList := by decide
  have hclosed : '(' ∉ "CLOSED".toList := by decide
  -- a word with an argument has a parenthesis, which the other words have not
  have hplain : ∀ {word : String} {argument : List Char},
      argument? word (upper text) = some argument →
        upper text ≠ "OPEN".toList ∧ upper text ≠ "CLOSED".toList := by
    intro word argument hsome
    refine ⟨?_, ?_⟩
    · intro heq
      rw [heq, argument?_of_notMem hopened] at hsome
      cases hsome
    · intro heq
      rw [heq, argument?_of_notMem hclosed] at hsome
      cases hsome
  rw [parse_eq]
  cases h with
  | opened h => exact if_pos ((sameFolded_trim_iff rfl).1 h)
  | closed h =>
    rw [(sameFolded_trim_iff rfl).1 h]
    rfl
  | @throttle argument ms h hms =>
    have hargument := sameFolded_throttle_iff.1 h
    obtain ⟨hnotOpened, hnotClosed⟩ := hplain hargument
    rw [if_neg hnotOpened, if_neg hnotClosed, hargument]
    exact delayed_of_some (uint32?_argument.2 hms)
  | @refuseAfter argument ms h hms =>
    have hargument := sameFolded_refuseAfter_iff.1 h
    obtain ⟨hnotOpened, hnotClosed⟩ := hplain hargument
    have hother : argument? "THROTTLE" (upper text) = none := by
      rw [argument?_eq_some_iff.1 hargument]
      rfl
    rw [if_neg hnotOpened, if_neg hnotClosed, hother, hargument]
    exact delayed_of_some (uint32?_argument.2 hms)
  | @code n h hleast hgreatest =>
    have hnotOpened := upper_ne_of_signed h (w := "OPEN".toList) rfl
    have hnotClosed := upper_ne_of_signed h (w := "CLOSED".toList) rfl
    have hthrottle := argument?_of_signed "THROTTLE" h (by decide) rfl
    have hrefuse := argument?_of_signed "REFUSE_AFTER" h (by decide) rfl
    have hread := Text.int64?_eq_some_iff.2 ⟨h, hleast, hgreatest⟩
    rw [if_neg hnotOpened, if_neg hnotClosed, hthrottle, hrefuse, hread]

/-- What was found in the capitals of a text is in capitals. -/
theorem capitals_of_argument (h : argument? word (upper text) = some argument) :
    (String.ofList argument).toList.map Char.toUpper = argument := by
  rw [String.toList_ofList]
  refine (List.map_congr_left fun c hc => ?_).trans (List.map_id argument)
  have hmem : c ∈ upper text := by
    rw [argument?_eq_some_iff.1 h]
    simp [hc]
  obtain ⟨d, -, rfl⟩ := List.mem_map.1 hmem
  exact Text.toUpper_toUpper d

/-- **Every text says something or is refused**, and it is refused for what stands in its
parentheses or as it stands. -/
theorem reads_or_fails (text : String) :
    (∃ s, parse text = .ok s ∧ Reads text s) ∨
      (HasArgument text ∧ parse text = .error (.invalidDelay (Text.trim text))) ∨
      (¬ HasArgument text ∧ parse text = .error (.unknown (Text.trim text))) := by
  by_cases hopened : upper text = "OPEN".toList
  · have hreads : Reads text .opened := .opened ((sameFolded_trim_iff rfl).2 hopened)
    exact .inl ⟨_, parse_of_reads hreads, hreads⟩
  by_cases hclosed : upper text = "CLOSED".toList
  · have hreads : Reads text .closed := .closed ((sameFolded_trim_iff rfl).2 hclosed)
    exact .inl ⟨_, parse_of_reads hreads, hreads⟩
  rw [parse_eq, if_neg hopened, if_neg hclosed]
  cases hthrottle : argument? "THROTTLE" (upper text) with
  | some argument =>
    have hword := capitals_of_argument hthrottle
    rw [← hword] at hthrottle
    have hform := sameFolded_throttle_iff.2 hthrottle
    rcases delayed_cases text throttle argument with ⟨ms, hms, hok⟩ | herror
    · rw [← hword] at hms
      exact .inl ⟨_, hok, .throttle hform (uint32?_argument.1 hms)⟩
    · exact .inr (.inl ⟨⟨_, .inl hform⟩, herror⟩)
  | none =>
    cases hrefuse : argument? "REFUSE_AFTER" (upper text) with
    | some argument =>
      have hword := capitals_of_argument hrefuse
      rw [← hword] at hrefuse
      have hform := sameFolded_refuseAfter_iff.2 hrefuse
      rcases delayed_cases text refuseAfter argument with ⟨ms, hms, hok⟩ | herror
      · rw [← hword] at hms
        exact .inl ⟨_, hok, .refuseAfter hform (uint32?_argument.1 hms)⟩
      · exact .inr (.inl ⟨⟨_, .inr hform⟩, herror⟩)
    | none =>
      have hform : ¬ HasArgument text := by
        rintro ⟨argument, h | h⟩
        · rw [sameFolded_throttle_iff.1 h] at hthrottle
          cases hthrottle
        · rw [sameFolded_refuseAfter_iff.1 h] at hrefuse
          cases hrefuse
      cases hread : Text.int64? (Text.trim text).toList with
      | some n =>
        obtain ⟨hsigned, hleast, hgreatest⟩ := Text.int64?_eq_some_iff.1 hread
        exact .inl ⟨_, rfl, .code hsigned hleast hgreatest⟩
      | none => exact .inr (.inr ⟨hform, rfl⟩)

/-- What is parsed from a text is what the text reads as. -/
theorem parse_eq_ok_iff {s : Status} : parse text = .ok s ↔ Reads text s := by
  refine ⟨fun h => ?_, parse_of_reads⟩
  rcases reads_or_fails text with ⟨s', hs', hreads⟩ | ⟨-, herror⟩ | ⟨-, herror⟩
  · rw [hs'] at h
    cases h
    exact hreads
  · rw [herror] at h
    cases h
  · rw [herror] at h
    cases h

/-! ## Written statuses -/

/-- The end of a text is a blank in any letter case or in none. -/
theorem bare_of_sameFolded {a b : String} (h : Text.sameFolded a b = true)
    (hb : Text.Bare b.toList) : Text.Bare a.toList := by
  rw [Text.sameFolded_iff_toUpper] at h
  rw [← Text.bare_map_toUpper, h, Text.bare_map_toUpper]
  exact hb

/-- Blanks around a spelling are trimmed. -/
theorem trim_append {before spelled behind : String} (hbefore : Text.AllBlank before)
    (hspelled : Text.Bare spelled.toList) (hbehind : Text.AllBlank behind) :
    Text.trim (before ++ spelled ++ behind) = spelled := by
  rw [Text.trim, String.toList_append, String.toList_append, List.append_assoc,
    Text.trimChars_append hbefore hspelled hbehind, String.ofList_toList]

/-- What begins with a word and ends with a parenthesis has no blank at its ends. -/
theorem bare_parenthesised {c : Char} (hc : Text.isBlank c = false) (cs : List Char) :
    Text.Bare (c :: (cs ++ [')'])) := by
  refine ⟨?_, ?_⟩
  · rw [List.head?_cons, Option.all_some, hc]
    rfl
  · rw [← List.cons_append, List.getLast?_concat]
    rfl

/-- A status that is spaced has no blanks at its ends. -/
theorem bare_spaced (s : Status) (left right : String) :
    Text.Bare (s.spaced left right).toList := by
  cases s with
  | opened => exact Text.bare_of_no_blank fun c hc => (plain_text .opened c hc).1
  | closed => exact Text.bare_of_no_blank fun c hc => (plain_text .closed c hc).1
  | throttle ms =>
    show Text.Bare ("THROTTLE(" ++ left ++ toString ms ++ right ++ ")").toList
    rw [String.toList_append, String.toList_append, String.toList_append, String.toList_append]
    exact bare_parenthesised (c := 'T') rfl _
  | refuseAfter ms =>
    show Text.Bare ("REFUSE_AFTER(" ++ left ++ toString ms ++ right ++ ")").toList
    rw [String.toList_append, String.toList_append, String.toList_append, String.toList_append]
    exact bare_parenthesised (c := 'R') rfl _

/-- A number with blanks around it is the number. -/
theorem unsigned_spaced {left right : String} (hleft : Text.AllBlank left)
    (hright : Text.AllBlank right) (ms : UInt32) :
    Text.Unsigned (Text.trim (left ++ toString ms ++ right)).toList ms.toNat := by
  have hbare : Text.Bare (toString ms).toList := by
    rw [Text.toList_toString_uint32]
    refine Text.bare_of_no_blank fun c hc => ?_
    exact Text.isBlank_of_isDigit (Text.isDigit_of_mem_written hc)
  rw [trim_append hleft hbare hright, Text.toList_toString_uint32]
  exact .bare (Text.numeral_written ms.toNat)

/-- **What is written for a status says that status**, in any letter case and with blanks around it
and around its number. -/
theorem reads_spaced {s : Status} {before behind left right spelled : String}
    (hbefore : Text.AllBlank before) (hbehind : Text.AllBlank behind)
    (hleft : Text.AllBlank left) (hright : Text.AllBlank right)
    (hspelled : Text.sameFolded spelled (s.spaced left right) = true) :
    Reads (before ++ spelled ++ behind) s := by
  have htrim : Text.trim (before ++ spelled ++ behind) = spelled :=
    trim_append hbefore (bare_of_sameFolded hspelled (s.bare_spaced left right)) hbehind
  rw [← htrim] at hspelled
  cases s with
  | opened => exact .opened hspelled
  | closed => exact .closed hspelled
  | throttle ms =>
    have hform : (throttle ms).spaced left right =
        s!"THROTTLE({left ++ toString ms ++ right})" := by
      show "THROTTLE(" ++ left ++ toString ms ++ right ++ ")" =
        "THROTTLE(" ++ (left ++ toString ms ++ right) ++ ")"
      simp only [String.append_assoc]
    rw [hform] at hspelled
    exact .throttle hspelled (unsigned_spaced hleft hright ms)
  | refuseAfter ms =>
    have hform : (refuseAfter ms).spaced left right =
        s!"REFUSE_AFTER({left ++ toString ms ++ right})" := by
      show "REFUSE_AFTER(" ++ left ++ toString ms ++ right ++ ")" =
        "REFUSE_AFTER(" ++ (left ++ toString ms ++ right) ++ ")"
      simp only [String.append_assoc]
    rw [hform] at hspelled
    exact .refuseAfter hspelled (unsigned_spaced hleft hright ms)

end Status

/-- **Status texts are read exactly.**  What is written for a status is read as that status, in any
letter case, with blanks around it and around its number.  A text is read as a status exactly if it
says that status, and every text that says none is refused: where it has a word and parentheses for
what stands in them, and as it stands where it has not. -/
theorem status_text_exact (s : Status) :
    (∀ before behind left right spelled : String,
      Text.AllBlank before → Text.AllBlank behind → Text.AllBlank left → Text.AllBlank right →
      Text.sameFolded spelled (s.spaced left right) = true →
      Status.parse (before ++ spelled ++ behind) = .ok s) ∧
    s.spaced "" "" = s.text ∧
    ∀ text : String,
      (Status.parse text = .ok s ↔ Status.Reads text s) ∧
      ((∀ other, ¬ Status.Reads text other) →
        (Status.HasArgument text →
          Status.parse text = .error (.invalidDelay (Text.trim text))) ∧
        (¬ Status.HasArgument text → Status.parse text = .error (.unknown (Text.trim text)))) := by
  refine ⟨?_, s.spaced_empty, fun text => ⟨Status.parse_eq_ok_iff, ?_⟩⟩
  · intro before behind left right spelled hbefore hbehind hleft hright hspelled
    exact Status.parse_of_reads (Status.reads_spaced hbefore hbehind hleft hright hspelled)
  · intro hnone
    rcases Status.reads_or_fails text with ⟨other, -, hreads⟩ | ⟨hform, herror⟩ | ⟨hform, herror⟩
    · exact absurd hreads (hnone other)
    · exact ⟨fun _ => herror, fun h => absurd hform h⟩
    · exact ⟨fun h => absurd h hform, fun _ => herror⟩

/-- A delay in small letters, with blanks beyond ASCII on all sides; the number of another text is
one too great. -/
theorem status_text_exact_throttleAmongBlanks :
    Text.AllBlank "\u3000 " ∧ Text.AllBlank "\n" ∧ Text.AllBlank "\u2003" ∧ Text.AllBlank "\t" ∧
      Text.sameFolded "throttle(\u2003250\t)" ((Status.throttle 250).spaced "\u2003" "\t") = true ∧
      Status.parse ("\u3000 " ++ "throttle(\u2003250\t)" ++ "\n") = .ok (.throttle 250) ∧
      ¬ Status.Reads "Throttle(4294967296)" (.throttle 0) := by
  have hbefore : Text.AllBlank "\u3000 " := Text.allBlank_of_all rfl
  have hbehind : Text.AllBlank "\n" := Text.allBlank_of_all rfl
  have hleft : Text.AllBlank "\u2003" := Text.allBlank_of_all rfl
  have hright : Text.AllBlank "\t" := Text.allBlank_of_all rfl
  have hspelled : Text.sameFolded "throttle(\u2003250\t)"
      ((Status.throttle 250).spaced "\u2003" "\t") = true := by decide +kernel
  refine ⟨hbefore, hbehind, hleft, hright, hspelled, ?_, ?_⟩
  · exact (status_text_exact (.throttle 250)).1 _ _ _ _ _ hbefore hbehind hleft hright hspelled
  · intro hreads
    have hparse := ((status_text_exact (.throttle 0)).2.2 "Throttle(4294967296)").1.2 hreads
    have hfails : Status.parse "Throttle(4294967296)" =
        .error (.invalidDelay "Throttle(4294967296)") := by decide +kernel
    rw [hfails] at hparse
    cases hparse

end Wiretap
