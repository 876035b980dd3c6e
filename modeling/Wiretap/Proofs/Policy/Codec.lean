import Mathlib.Data.Bool.AllAny
import Wiretap.Policy.Storage
import Wiretap.Proofs.Json.Growth
import Wiretap.Proofs.Text.Decimal
/-!
# A written document is read back

Writing a document leaves out what a record does not name and marks that are not set, and writes
ports and statuses as texts; reading fills in what is missing and reads the texts.  So the two meet
only if nothing that is written looks like something left out: a host may be the empty text, but a
port is never blank.

* `Status.parse_text` — the text of a status is read as that status;
* `Decode.document_toJson` — the tree of a document is read as that document;
* `Document.parse_of_spells` — and so is every source that spells the tree, among them the compact
  and the pretty layout and the text of a file.
-/

namespace Wiretap

/-! ## Texts of statuses -/

namespace Text

/-- Digits have no case. -/
theorem toUpper_of_isDigit {c : Char} (h : c.isDigit = true) : c.toUpper = c := by
  obtain ⟨-, hhigh⟩ := toNat_of_isDigit h
  have hlower : ¬ (97 ≤ c.val ∧ c.val ≤ 122) := by
    rintro ⟨hlow, -⟩
    have hlow' : 97 ≤ c.toNat := hlow
    omega
  exact dif_neg hlower

end Text

namespace Status

/-- A word with a number in parentheses behind it. -/
def withDelay (word : String) (ms : UInt32) : List Char :=
  word.toList ++ '(' :: (Text.written ms.toNat ++ [')'])

/-- The text of a delay in transfers, character by character. -/
theorem toList_text_throttle (ms : UInt32) :
    (throttle ms).text.toList = withDelay "THROTTLE" ms := by
  show ("THROTTLE(" ++ toString ms ++ ")").toList = _
  simp [withDelay, ← Text.toList_toString_uint32]

/-- The text of a delay before a refusal, character by character. -/
theorem toList_text_refuseAfter (ms : UInt32) :
    (refuseAfter ms).text.toList = withDelay "REFUSE_AFTER" ms := by
  show ("REFUSE_AFTER(" ++ toString ms ++ ")").toList = _
  simp [withDelay, ← Text.toList_toString_uint32]

/-- A word has an argument exactly where it stands before one in parentheses. -/
theorem argument?_eq_some_iff {word : String} {cs argument : List Char} :
    argument? word cs = some argument ↔ cs = word.toList ++ '(' :: (argument ++ [')']) := by
  rw [argument?]
  simp only [bind, Option.bind_eq_some_iff, Text.after?_eq_some_iff, Text.between?_eq_some_iff]
  constructor
  · rintro ⟨rest, rfl, rfl⟩
    rfl
  · intro h
    exact ⟨_, h, rfl⟩

/-- The argument of a word with a delay is the delay in digits. -/
theorem argument?_withDelay (word : String) (ms : UInt32) :
    argument? word (withDelay word ms) = some (Text.written ms.toNat) :=
  argument?_eq_some_iff.2 rfl

/-- What a status is written with: no blanks, and nothing that upper case changes. -/
def Plain (c : Char) : Prop := Text.isBlank c = false ∧ c.toUpper = c

instance (c : Char) : Decidable (Plain c) := inferInstanceAs (Decidable (_ ∧ _))

/-- The characters of a closed text are gone through one by one. -/
theorem plain_of_all {cs : List Char} (h : cs.all (Plain ·) = true) : ∀ c ∈ cs, Plain c :=
  List.all_iff_forall_prop.1 h

/-- A plain word with a delay is plain. -/
theorem plain_withDelay {word : String} (hword : ∀ c ∈ word.toList, Plain c) (ms : UInt32) :
    ∀ c ∈ withDelay word ms, Plain c := by
  intro c hc
  simp only [withDelay, List.mem_append, List.mem_cons, List.not_mem_nil, or_false] at hc
  rcases hc with hc | rfl | hc | rfl
  · exact hword c hc
  · decide
  · have hdigit := Text.isDigit_of_mem_written hc
    exact ⟨Text.isBlank_of_isDigit hdigit, Text.toUpper_of_isDigit hdigit⟩
  · decide

/-- The text of every status is plain. -/
theorem plain_text (s : Status) : ∀ c ∈ s.text.toList, Plain c := by
  cases s with
  | opened => exact plain_of_all (by decide)
  | closed => exact plain_of_all (by decide)
  | throttle ms =>
    rw [toList_text_throttle]
    exact plain_withDelay (plain_of_all (by decide)) ms
  | refuseAfter ms =>
    rw [toList_text_refuseAfter]
    exact plain_withDelay (plain_of_all (by decide)) ms

/-- What has a parenthesis is none of the words without one. -/
theorem withDelay_ne {cs : List Char} (h : '(' ∉ cs) (word : String) (ms : UInt32) :
    withDelay word ms ≠ cs := by
  rintro rfl
  exact h (by simp [withDelay])

/-- **The text of a status is read as that status.** -/
theorem parse_text (s : Status) : parse s.text = .ok s := by
  have htrim : Text.trimChars s.text.toList = s.text.toList :=
    Text.trimChars_of_no_blank fun c hc => (s.plain_text c hc).1
  have hupper : s.text.toList.map Char.toUpper = s.text.toList :=
    (List.map_congr_left fun c hc => (s.plain_text c hc).2).trans (List.map_id _)
  have hdelay : ∀ ms : UInt32, Text.uint32? (Text.trimChars (Text.written ms.toNat)) = some ms := by
    intro ms
    rw [Text.trimChars_written, ← Text.toList_toString_uint32, Text.uint32?_toString]
  have hopened : '(' ∉ "OPEN".toList := by decide
  have hclosed : '(' ∉ "CLOSED".toList := by decide
  rw [parse, htrim, parseChars, hupper]
  cases s with
  | opened => rfl
  | closed => rfl
  | throttle ms =>
    rw [toList_text_throttle]
    simp only [withDelay_ne hopened, withDelay_ne hclosed, if_false, argument?_withDelay, hdelay]
    rfl
  | refuseAfter ms =>
    have hother : argument? "THROTTLE" (withDelay "REFUSE_AFTER" ms) = none := rfl
    rw [toList_text_refuseAfter]
    simp only [withDelay_ne hopened, withDelay_ne hclosed, if_false, hother, argument?_withDelay,
      hdelay]
    rfl

end Status

/-! ## Steps that may fail -/

/-- Two steps give a value if the first gives one, and the second gives it from there. -/
theorem Except.bind_eq_ok_iff {ε α β : Type} {result : Except ε α} {next : α → Except ε β}
    {b : β} : result >>= next = .ok b ↔ ∃ a, result = .ok a ∧ next a = .ok b := by
  cases result with
  | error e => exact iff_of_false nofun nofun
  | ok a =>
    constructor
    · intro h
      exact ⟨a, rfl, h⟩
    · rintro ⟨a', ha', h⟩
      cases ha'
      exact h

/-- A step of reading that gives a value was given one. -/
theorem Except.map_eq_ok_iff {ε α β : Type} {result : Except ε α} {f : α → β} {b : β} :
    result.map f = .ok b ↔ ∃ a, result = .ok a ∧ f a = b := by
  cases result with
  | error e => exact iff_of_false nofun nofun
  | ok a => simp [Except.map]

/-! ## Records and documents -/

namespace Decode

/-- A step that gives a value goes on with that value. -/
@[simp] theorem ok_bind {α β : Type} (value : α) (next : α → Decoded β) :
    (Except.ok value : Decoded α) >>= next = next value := rfl

/-- **A written port is read back**: it is never blank, and never a star. -/
theorem portText_toString (port : UInt16) : portText (toString port) = .ok (some port) := by
  have hnil : Text.written port.toNat ≠ [] := Nat.toDigits_ne_nil
  have hstar : Text.written port.toNat ≠ ['*'] := by
    intro heq
    have hmem : '*' ∈ Text.written port.toNat := by simp [heq]
    exact absurd (Text.isDigit_of_mem_written hmem) (by decide)
  have hread : Text.uint16? (Text.written port.toNat) = some port := by
    rw [← Text.toList_toString_uint16, Text.uint16?_toString]
  rw [portText, Text.toList_toString_uint16, Text.trimChars_written]
  simp only [hnil, hstar, or_self, if_false, hread]

/-- A port that is written is read back. -/
@[simp] theorem port_text (port : UInt16) :
    Decode.port (Encode.text (toString port)) = .ok (some port) := portText_toString port

/-- A status that is written is read back. -/
@[simp] theorem status_text (s : Status) : Decode.status (Encode.text s.text) = .ok s := by
  show (Status.parse s.text).mapError DocumentError.status = _
  rw [Status.parse_text]
  rfl

@[simp] theorem optionalText_text (s : String) : optionalText (Encode.text s) = .ok (some s) := rfl

@[simp] theorem bool_bool (b : Bool) : bool (.bool b) = .ok b := rfl

/-- The value of a field that has none yet. -/
@[simp] theorem once_none {α : Type} (name : String) (value : α) :
    once name none (.ok value) = .ok (some value) := rfl

/-- A socket record is read back, whichever of its fields are written. -/
theorem socketRecord_encode (r : SocketRecord) :
    socketRecord (Encode.socketRecord r) = .ok r := by
  obtain ⟨host, port, status, discovered⟩ := r
  cases host <;> cases port <;> cases discovered <;>
    simp [Encode.socketRecord, Encode.optionalField, Encode.discoveredField, socketRecord,
      SocketDraft.field, SocketDraft.finish]

/-- A data source record is read back, whichever of its fields are written. -/
theorem dataSourceRecord_encode (r : DataSourceRecord) :
    dataSourceRecord (Encode.dataSourceRecord r) = .ok r := by
  obtain ⟨url, user, status, discovered⟩ := r
  cases url <;> cases user <;> cases discovered <;>
    simp [Encode.dataSourceRecord, Encode.optionalField, Encode.discoveredField,
      dataSourceRecord, DataSourceDraft.field, DataSourceDraft.finish]

/-- Items are read back if each of them is. -/
theorem list_array {α : Type} {read : Json → Decoded α} {write : α → Json}
    (h : ∀ a, read (write a) = .ok a) (values : List α) :
    list read (.array (values.map write)) = .ok values := by
  show (values.map write).mapM read = .ok values
  induction values with
  | nil => rfl
  | cons value values ih =>
    rw [List.map_cons, List.mapM_cons, h, ih]
    rfl

/-- **The tree of a document is read as that document.** -/
theorem document_toJson (d : Document) : document d.toJson = .ok d := by
  have hsockets := list_array socketRecord_encode d.sockets
  have hdataSources := list_array dataSourceRecord_encode d.dataSources
  simp [Document.toJson, document, DocumentDraft.field, DocumentDraft.finish, hsockets,
    hdataSources]

end Decode

/-! ## Written trees are legible -/

namespace Encode

theorem isLegible_text (s : String) : (text s).IsLegible := .text _

/-- A field that may be missing is legible if its values are. -/
theorem isLegible_optionalField {name : String} {α : Type} {value : Option α} {write : α → Json}
    (h : ∀ a, (write a).IsLegible) :
    ∀ field ∈ optionalField name (value.map write), field.2.IsLegible := by
  intro field hfield
  cases value with
  | none => cases hfield
  | some a =>
    rw [List.mem_singleton.1 hfield]
    exact h a

/-- The field of discovered records is legible. -/
theorem isLegible_discoveredField (discovered : Bool) :
    ∀ field ∈ discoveredField discovered, field.2.IsLegible := by
  intro field hfield
  cases discovered with
  | false => cases hfield
  | true =>
    rw [List.mem_singleton.1 hfield]
    exact .bool true

/-- Both kinds of record: two fields that may be left out, the status and the mark. -/
theorem isLegible_record {first second : List (Option String × Json)} {status : Status}
    {discovered : Bool} (hfirst : ∀ field ∈ first, field.2.IsLegible)
    (hsecond : ∀ field ∈ second, field.2.IsLegible) :
    (Json.object (first ++ second ++ [(some "status", text status.text)] ++
      discoveredField discovered)).IsLegible := by
  refine .object fun field hfield => ?_
  rcases List.mem_append.1 hfield with hfield | hmark
  · rcases List.mem_append.1 hfield with hfield | hstatus
    · rcases List.mem_append.1 hfield with hfield | hfield
      · exact hfirst field hfield
      · exact hsecond field hfield
    · rw [List.mem_singleton.1 hstatus]
      exact isLegible_text _
  · exact isLegible_discoveredField discovered field hmark

/-- Socket records are written legibly. -/
theorem isLegible_socketRecord (r : SocketRecord) : (socketRecord r).IsLegible :=
  isLegible_record (isLegible_optionalField isLegible_text)
    (isLegible_optionalField fun _ => isLegible_text _)

/-- Data source records are written legibly. -/
theorem isLegible_dataSourceRecord (r : DataSourceRecord) : (dataSourceRecord r).IsLegible :=
  isLegible_record (isLegible_optionalField isLegible_text)
    (isLegible_optionalField isLegible_text)

end Encode

namespace Document

/-- Documents are written legibly. -/
theorem isLegible_toJson (d : Document) : d.toJson.IsLegible := by
  have hsockets : (Json.array (d.sockets.map Encode.socketRecord)).IsLegible := by
    refine .array fun item hitem => ?_
    obtain ⟨record, -, rfl⟩ := List.mem_map.1 hitem
    exact Encode.isLegible_socketRecord record
  have hdataSources : (Json.array (d.dataSources.map Encode.dataSourceRecord)).IsLegible := by
    refine .array fun item hitem => ?_
    obtain ⟨record, -, rfl⟩ := List.mem_map.1 hitem
    exact Encode.isLegible_dataSourceRecord record
  refine .object fun field hfield => ?_
  simp only [List.mem_cons, List.not_mem_nil, or_false] at hfield
  rcases hfield with rfl | rfl | rfl
  · exact .bool _
  · exact hsockets
  · exact hdataSources

/-! ## Reading a document back -/

/-- **Every source that spells a document is read as that document.** -/
theorem parse_of_spells (d : Document) {cs : List Char} (h : Json.Spells d.toJson.tokens cs) :
    parse (cs.map some) = .ok d := by
  rw [parse, Decode.source, Json.read_of_spells d.isLegible_toJson h]
  dsimp only
  rw [Decode.document_toJson]
  rfl

/-- A document that is written in one line is read back. -/
theorem ofText_compact (d : Document) : ofText d.compact = .ok d :=
  d.parse_of_spells (Json.spells_compact d.isLegible_toJson)

/-- A document that is written in many lines is read back. -/
theorem ofText_pretty (d : Document) : ofText d.pretty = .ok d :=
  d.parse_of_spells (Json.spells_pretty d.isLegible_toJson)

/-- The text of a file is read as the document that it keeps. -/
theorem ofBytes_fileText (d : Document) : ofBytes d.fileText.toUTF8 = .ok d := by
  have hspells : Json.Spells d.toJson.tokens d.fileText.toList := by
    rw [fileText, String.toList_append]
    exact (Json.spells_pretty d.isLegible_toJson).append_blanks (List.all_eq_true.1 (by decide))
  rw [ofBytes, Json.Source.ofBytes_toUTF8]
  exact d.parse_of_spells hspells

end Document

end Wiretap
