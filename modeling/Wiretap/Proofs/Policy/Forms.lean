import Wiretap.Proofs.Policy.Codes
import Wiretap.Proofs.Policy.Fields
/-!
# The forms of a policy document

A document is written in one form and read in many.  `DocumentForm` says which trees of JSON mean
which document, field by field: a port is a number or a text of one, or is left open in one of four
ways; a status is a text that says it or a code of it; what has a usual value may be left out.
Nothing is said there of reading.

Each reader of a value takes the forms of that value and nothing else (`Decode.takes_port`,
`Decode.takes_status`), and so does the reader of a list of values (`Decode.Takes.list`).
-/

namespace Wiretap

/-! ## Texts with blanks around them -/

namespace Text

/-- The text is `inner`, with blanks around it or without. -/
def Spaced (inner s : String) : Prop :=
  ∃ before behind : String, AllBlank before ∧ AllBlank behind ∧ s = before ++ inner ++ behind

/-- What is trimmed at the front is blank. -/
theorem exists_blanks_front (cs : List Char) :
    ∃ before, (∀ c ∈ before, isBlank c = true) ∧ cs = before ++ trimFront cs := by
  refine ⟨cs.takeWhile isBlank, fun c hc => List.mem_takeWhile_imp hc, ?_⟩
  exact List.takeWhile_append_dropWhile.symm

/-- A text is what trimming leaves of it, with blanks around that. -/
theorem spaced_trim (s : String) : Spaced (trim s) s := by
  obtain ⟨before, hbefore, hfront⟩ := exists_blanks_front s.toList
  obtain ⟨behind, hbehind, hback⟩ := exists_blanks_front (trimFront s.toList).reverse
  refine ⟨String.ofList before, String.ofList behind.reverse, ?_, ?_, ?_⟩
  · intro c hc
    rw [String.toList_ofList] at hc
    exact hbefore c hc
  · intro c hc
    rw [String.toList_ofList, List.mem_reverse] at hc
    exact hbehind c hc
  · have hmiddle : trimFront s.toList = trimChars s.toList ++ behind.reverse := by
      rw [trimChars, trimBack, ← List.reverse_append, ← hback, List.reverse_reverse]
    rw [← String.toList_inj, String.toList_append, String.toList_append, trim,
      String.toList_ofList, String.toList_ofList, String.toList_ofList, List.append_assoc,
      ← hmiddle]
    exact hfront

/-- Around a bare text, blanks are what trimming takes away. -/
theorem spaced_iff_trim {inner s : String} (h : Bare inner.toList) :
    Spaced inner s ↔ trim s = inner := by
  constructor
  · rintro ⟨before, behind, hbefore, hbehind, rfl⟩
    exact Status.trim_append hbefore h hbehind
  · rintro rfl
    exact spaced_trim s

/-- A blank text is trimmed to nothing. -/
theorem allBlank_iff_trim {s : String} : AllBlank s ↔ trim s = "" := by
  have hbare : Bare "".toList := ⟨rfl, rfl⟩
  rw [← spaced_iff_trim hbare]
  constructor
  · intro h
    refine ⟨s, "", h, allBlank_of_all rfl, ?_⟩
    rw [String.append_empty, String.append_empty]
  · rintro ⟨before, behind, hbefore, hbehind, rfl⟩ c hc
    rw [String.append_empty, String.toList_append, List.mem_append] at hc
    exact hc.elim (hbefore c) (hbehind c)

end Text

/-! ## The forms of a value -/

/-- A text, or null for none. -/
inductive TextForm : Json → Option String → Prop where
  | null : TextForm .null none
  | text (s : String) : TextForm (.text (some s)) (some s)

/-- A mark that is set or not. -/
inductive MarkForm : Json → Bool → Prop where
  | bool (b : Bool) : MarkForm (.bool b) b

/-- **The forms of a port.**  It is left open by null, by blanks and by a star; a port is given by
its number or by a text of that number.  The star, like the number, may have blanks around it, and
the number in a text may have a plus sign and leading zeros. -/
inductive PortForm : Json → Option UInt16 → Prop where
  | null : PortForm .null none
  | blank {s : String} (h : Text.AllBlank s) : PortForm (.text (some s)) none
  | star {s : String} (h : Text.Spaced "*" s) : PortForm (.text (some s)) none
  | text {s digits : String} {port : UInt16} (h : Text.Spaced digits s)
      (hport : Text.Unsigned digits.toList port.toNat) : PortForm (.text (some s)) (some port)
  | number {literal : String} {port : UInt16} (h : Json.Whole literal port.toNat) :
      PortForm (.number literal) (some port)

/-- **The forms of a status**: a text that says it, or a code of it. -/
inductive StatusForm : Json → Status → Prop where
  | text {s : String} {status : Status} (h : Status.Reads s status) :
      StatusForm (.text (some s)) status
  | code {literal : String} {n : Int64} (h : Json.Whole literal n.toInt) :
      StatusForm (.number literal) (.ofCode n.toInt)

/-- Values in an array, each in a form of its own. -/
inductive ListForm {α : Type} (form : Json → α → Prop) : Json → List α → Prop where
  | array {items : List Json} {values : List α} (h : List.Forall₂ form items values) :
      ListForm form (.array items) values

/-! ## The forms of a record -/

/-- The forms of a socket record. -/
structure SocketForm (tree : Json) (r : SocketRecord) : Prop where
  isRecord : tree.IsRecord 4
  host : Field TextForm (some none) (tree.said 0 "host") r.host
  port : Field PortForm (some none) (tree.said 1 "port") r.port
  status : Field StatusForm none (tree.said 2 "status") r.status
  discovered : Field MarkForm (some false) (tree.said 3 "discovered") r.discovered

/-- The forms of a data source record. -/
structure DataSourceForm (tree : Json) (r : DataSourceRecord) : Prop where
  isRecord : tree.IsRecord 4
  url : Field TextForm (some none) (tree.said 0 "url") r.url
  user : Field TextForm (some none) (tree.said 1 "userName") r.user
  status : Field StatusForm none (tree.said 2 "status") r.status
  discovered : Field MarkForm (some false) (tree.said 3 "discovered") r.discovered

/-- **The forms of a document.** -/
structure DocumentForm (tree : Json) (d : Document) : Prop where
  isRecord : tree.IsRecord 3
  persistent : Field MarkForm (some false) (tree.said 0 "persistent") d.persistent
  sockets : Field (ListForm SocketForm) (some []) (tree.said 1 "sockets") d.sockets
  dataSources :
    Field (ListForm DataSourceForm) (some []) (tree.said 2 "dataSources") d.dataSources

/-! ## Reading values -/

namespace Decode

/-- A text that may be missing is taken in the forms of a text. -/
theorem takes_optionalText : Takes optionalText TextForm := by
  intro value a
  constructor
  · intro h
    unfold optionalText at h
    split at h
    · cases h
      exact .null
    · cases h
      exact .text _
    · cases h
  · intro h
    cases h with
    | null => rfl
    | text s => rfl

/-- A mark is taken in the forms of a mark. -/
theorem takes_bool : Takes bool MarkForm := by
  intro value a
  constructor
  · intro h
    unfold bool at h
    split at h
    · cases h
      exact .bool _
    · cases h
  · intro h
    cases h with
    | bool b => rfl

/-- The texts that are read as ports are the texts among the forms of a port. -/
theorem portText_eq_ok_iff {s : String} {port : Option UInt16} :
    portText s = .ok port ↔ PortForm (.text (some s)) port := by
  have hbare : Text.Bare "*".toList := ⟨rfl, rfl⟩
  have htrim : Text.trimChars s.toList = (Text.trim s).toList := String.toList_ofList.symm
  have hstar : (Text.trim s).toList = ['*'] ↔ Text.trim s = "*" := by
    rw [← String.toList_inj]
    rfl
  unfold portText
  simp only [htrim, String.toList_eq_nil_iff, hstar]
  constructor
  · intro h
    split at h
    · rename_i hopen
      cases h
      rcases hopen with hblank | hstar
      · exact .blank (Text.allBlank_iff_trim.2 hblank)
      · exact .star ((Text.spaced_iff_trim hbare).2 hstar)
    · split at h
      · rename_i hport
        cases h
        exact .text (Text.spaced_trim s) (Text.uint16?_eq_some_iff.1 hport)
      · cases h
  · intro h
    cases h with
    | blank h => exact if_pos (.inl (Text.allBlank_iff_trim.1 h))
    | star h => exact if_pos (.inr ((Text.spaced_iff_trim hbare).1 h))
    | @text _ digits port h hport =>
      have htrim : Text.trim s = digits :=
        (Text.spaced_iff_trim (Text.bare_of_no_blank hport.not_isBlank)).1 h
      have hopen : ¬ (digits = "" ∨ digits = "*") := by
        obtain ⟨c, rest, hdigits, hc⟩ := hport.exists_head
        rintro (rfl | rfl)
        · cases hdigits
        · cases hdigits
          exact absurd hc (by decide)
      rw [htrim, if_neg hopen, Text.uint16?_eq_some_iff.2 hport]

/-- The numbers that are read as ports are the numbers among the forms of a port. -/
theorem portNumber_eq_ok_iff {literal : String} {port : Option UInt16} :
    portNumber literal = .ok port ↔ PortForm (.number literal) port := by
  constructor
  · intro h
    unfold portNumber at h
    split at h
    · rename_i n hn
      obtain ⟨hwhole, -⟩ := Json.wholeNumber?_eq_some_iff.1 hn
      split at h
      · rename_i hbounds
        obtain ⟨hleast, hgreatest⟩ := hbounds
        cases h
        obtain ⟨m, rfl⟩ := Int.eq_ofNat_of_zero_le hleast
        have hm : m < UInt16.size := Int.ofNat_lt.1 hgreatest
        refine .number ?_
        rw [Int.toNat_natCast, UInt16.toNat_ofNat_of_lt' hm]
        exact hwhole
      · cases h
    · cases h
  · intro h
    cases h with
    | @number _ port h =>
      have hbound : port.toNat < 65536 := port.toNat_lt
      have hread : Json.wholeNumber? literal = some port.toNat :=
        Json.wholeNumber?_eq_some_iff.2 ⟨h, by omega, by omega⟩
      have hport : (0 : Int) ≤ port.toNat ∧ (port.toNat : Int) < UInt16.size :=
        ⟨Int.natCast_nonneg _, Int.ofNat_lt.2 hbound⟩
      rw [portNumber, hread]
      refine (if_pos hport).trans ?_
      rw [Int.toNat_natCast, UInt16.ofNat_toNat]

/-- A port is taken in the forms of a port. -/
theorem takes_port : Takes Decode.port PortForm := by
  intro value port
  cases value with
  | null =>
    constructor
    · intro h
      cases h
      exact .null
    · intro h
      cases h
      rfl
  | number literal => exact portNumber_eq_ok_iff
  | text content =>
    cases content with
    | some s => exact portText_eq_ok_iff
    | none => exact iff_of_false nofun nofun
  | bool | array | object | broken => exact iff_of_false nofun nofun

/-- The texts that are read as statuses are the texts among the forms of a status. -/
theorem statusText_eq_ok_iff {s : String} {status : Status} :
    Decode.status (.text (some s)) = .ok status ↔ StatusForm (.text (some s)) status := by
  have hparse : Decode.status (.text (some s)) = .ok status ↔ Status.parse s = .ok status := by
    show (Status.parse s).mapError DocumentError.status = .ok status ↔ _
    cases Status.parse s with
    | error e => exact iff_of_false nofun nofun
    | ok status' => rw [Except.mapError, Except.ok.injEq, Except.ok.injEq]
  rw [hparse, Status.parse_eq_ok_iff]
  constructor
  · exact .text
  · intro h
    cases h with
    | text h => exact h

/-- The numbers that are read as statuses are the numbers among the forms of a status. -/
theorem statusNumber_eq_ok_iff {literal : String} {status : Status} :
    Decode.status (.number literal) = .ok status ↔ StatusForm (.number literal) status := by
  have hgreatest : Int64.maxValue.toInt = 2 ^ 63 - 1 := rfl
  constructor
  · intro h
    rw [Decode.status] at h
    split at h
    · rename_i n hn
      obtain ⟨hwhole, hleast, -⟩ := Json.wholeNumber?_eq_some_iff.1 hn
      split at h
      · rename_i hbound
        cases h
        have hcode : (Int64.ofInt n).toInt = n := Int64.toInt_ofInt_of_le hleast (by omega)
        rw [← hcode] at hwhole ⊢
        exact .code hwhole
      · cases h
    · cases h
  · intro h
    cases h with
    | @code _ n h =>
      have hleast := n.le_toInt
      have hbound := n.toInt_lt
      have hread : Json.wholeNumber? literal = some n.toInt :=
        Json.wholeNumber?_eq_some_iff.2 ⟨h, hleast, by omega⟩
      rw [Decode.status, hread]
      refine if_pos ?_
      omega

/-- A status is taken in the forms of a status. -/
theorem takes_status : Takes Decode.status StatusForm := by
  intro value status
  cases value with
  | number literal => exact statusNumber_eq_ok_iff
  | text content =>
    cases content with
    | some s => exact statusText_eq_ok_iff
    | none => exact iff_of_false nofun nofun
  | null | bool | array | object | broken => exact iff_of_false nofun nofun

/-- Items are taken if each of them is. -/
theorem Takes.list {α : Type} {read : Json → Decoded α} {form : Json → α → Prop}
    (h : Takes read form) : Takes (list read) (ListForm form) := by
  have hitems : ∀ items values, items.mapM read = .ok values ↔ List.Forall₂ form items values := by
    intro items
    induction items with
    | nil =>
      intro values
      show Except.ok [] = Except.ok values ↔ _
      rw [List.forall₂_nil_left_iff, Except.ok.injEq, eq_comm]
    | cons item items ih =>
      intro values
      rw [List.mapM_cons, Except.bind_eq_ok_iff, List.forall₂_cons_left_iff]
      simp only [h item, Except.bind_eq_ok_iff, ih, exists_and_left]
      refine exists_congr fun a => and_congr_right fun _ => exists_congr fun rest =>
        and_congr_right fun _ => ?_
      show Except.ok (a :: rest) = Except.ok values ↔ _
      rw [Except.ok.injEq, eq_comm]
  intro value values
  cases value with
  | array items =>
    show items.mapM read = .ok values ↔ _
    rw [hitems]
    constructor
    · exact .array
    · intro h
      cases h with
      | array h => exact h
  | null | bool | number | text | object | broken => exact iff_of_false nofun nofun

end Decode

end Wiretap
