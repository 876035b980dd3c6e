import Wiretap.Proofs.Policy.Forms
/-!
# Reading every form of a policy document

A tree is read as a record, or as a document, exactly if it is a form of it.  An array has one field
in each place.  In an object the fields come in any order: each of them goes to the part of the
draft that has its name (`field_eq_ok_iff`), so the parts are filled side by side and every part by
its own fields (`foldlM_eq_ok_iff`).

* `Decode.takes_document` — which trees are read as which document;
* `DocumentFault.not_form` — one port or one status that has no form spoils the whole document;
* `document_forms_exact` — both for sources, with the forms that every value has.
-/

namespace Wiretap

namespace Decode

/-! ## Reading a socket record -/

namespace SocketDraft

variable {d d' : SocketDraft}

/-- One more field goes to the part of the draft that has its name. -/
theorem field_eq_ok_iff {name : Option String} {value : Json} :
    d.field name value = .ok d' ↔ name.isSome = true ∧
      take optionalText "host" d.host (name, value) = .ok d'.host ∧
      take Decode.port "port" d.port (name, value) = .ok d'.port ∧
      take Decode.status "status" d.status (name, value) = .ok d'.status ∧
      take bool "discovered" d.discovered (name, value) = .ok d'.discovered := by
  obtain ⟨host, port, status, discovered⟩ := d
  obtain ⟨host', port', status', discovered'⟩ := d'
  unfold field
  split
  · simp [Except.bind_eq_ok_iff, take, pure, Except.pure]
  · simp [Except.bind_eq_ok_iff, take, pure, Except.pure, and_left_comm]
  · simp [Except.bind_eq_ok_iff, take, pure, Except.pure, and_left_comm]
  · simp [Except.bind_eq_ok_iff, take, pure, Except.pure, and_left_comm]
  · rename_i name hhost hport hstatus hdiscovered
    rw [take_other hhost, take_other hport, take_other hstatus, take_other hdiscovered]
    simp
  · simp

/-- The parts of a draft. -/
def parts : SocketDraft ≃
    Option (Option String) × Option (Option UInt16) × Option Status × Option Bool where
  toFun d := (d.host, d.port, d.status, d.discovered)
  invFun d := ⟨d.1, d.2.1, d.2.2.1, d.2.2.2⟩

/-- **Each part of the draft is filled by the fields that have its name.** -/
theorem foldlM_eq_ok_iff (fields : List (Option String × Json)) :
    fields.foldlM (fun d (name, value) => d.field name value) ({} : SocketDraft) = .ok d ↔
      (∀ field ∈ fields, field.1.isSome = true) ∧
      Slot TextForm (Json.under "host" fields) d.host ∧
      Slot PortForm (Json.under "port" fields) d.port ∧
      Slot StatusForm (Json.under "status" fields) d.status ∧
      Slot MarkForm (Json.under "discovered" fields) d.discovered := by
  have hparts := ((takes_optionalText.follows "host").prod <| (takes_port.follows "port").prod <|
    (takes_status.follows "status").prod (takes_bool.follows "discovered")).each (·.1.isSome = true)
  exact (hparts.comap parts).foldlM_eq_ok_iff (fun _ _ _ => field_eq_ok_iff) fields d

/-- A socket record is finished if it has a status; what else is missing is filled in. -/
theorem finish_eq_ok_iff {r : SocketRecord} :
    d.finish = .ok r ↔ d.host.or (some none) = some r.host ∧ d.port.or (some none) = some r.port ∧
      d.status.or none = some r.status ∧ d.discovered.or (some false) = some r.discovered := by
  obtain ⟨host, port, status, discovered⟩ := d
  obtain ⟨rhost, rport, rstatus, rdiscovered⟩ := r
  unfold finish
  split
  · simp_all [Option.or_some]
  · simp_all

end SocketDraft

/-- A socket record is taken in the forms of one. -/
theorem takes_socketRecord : Takes socketRecord SocketForm := by
  intro tree r
  cases tree with
  | object fields =>
    rw [socketRecord, Except.bind_eq_ok_iff]
    simp only [SocketDraft.foldlM_eq_ok_iff, SocketDraft.finish_eq_ok_iff]
    constructor
    · rintro ⟨d, ⟨hnamed, hhost, hport, hstatus, hdiscovered⟩,
        hhost', hport', hstatus', hdiscovered'⟩
      exact ⟨hnamed, field_iff_slot.2 ⟨_, hhost, hhost'⟩, field_iff_slot.2 ⟨_, hport, hport'⟩,
        field_iff_slot.2 ⟨_, hstatus, hstatus'⟩, field_iff_slot.2 ⟨_, hdiscovered, hdiscovered'⟩⟩
    · rintro ⟨hnamed, hhost, hport, hstatus, hdiscovered⟩
      obtain ⟨host, hhost, hhost'⟩ := field_iff_slot.1 hhost
      obtain ⟨port, hport, hport'⟩ := field_iff_slot.1 hport
      obtain ⟨status, hstatus, hstatus'⟩ := field_iff_slot.1 hstatus
      obtain ⟨discovered, hdiscovered, hdiscovered'⟩ := field_iff_slot.1 hdiscovered
      exact ⟨⟨host, port, status, discovered⟩, ⟨hnamed, hhost, hport, hstatus, hdiscovered⟩,
        hhost', hport', hstatus', hdiscovered'⟩
  | array items =>
    show socketRecord (.array (items.drop 0)) = .ok r ↔ _
    simp only [socketRecord, Except.bind_eq_ok_iff, Prod.exists,
      takes_optionalText.next_eq_ok_iff, takes_port.next_eq_ok_iff, takes_status.next_eq_ok_iff,
      takes_bool.next_eq_ok_iff, noMore_eq_ok_iff, and_assoc, exists_and_left, exists_eq_left]
    constructor
    · rintro ⟨host, hhost, port, hport, status, hstatus, discovered, hdiscovered, hsize, rfl⟩
      exact ⟨hsize, hhost, hport, hstatus, hdiscovered⟩
    · rintro ⟨hsize, hhost, hport, hstatus, hdiscovered⟩
      exact ⟨_, hhost, _, hport, _, hstatus, _, hdiscovered, hsize, rfl⟩
  | null | bool | number | text | broken =>
    constructor
    · intro h
      cases h
    · intro h
      exact h.isRecord.elim

/-! ## Reading a data source record -/

namespace DataSourceDraft

variable {d d' : DataSourceDraft}

/-- One more field goes to the part of the draft that has its name. -/
theorem field_eq_ok_iff {name : Option String} {value : Json} :
    d.field name value = .ok d' ↔ name.isSome = true ∧
      take optionalText "url" d.url (name, value) = .ok d'.url ∧
      take optionalText "userName" d.user (name, value) = .ok d'.user ∧
      take Decode.status "status" d.status (name, value) = .ok d'.status ∧
      take bool "discovered" d.discovered (name, value) = .ok d'.discovered := by
  obtain ⟨url, user, status, discovered⟩ := d
  obtain ⟨url', user', status', discovered'⟩ := d'
  unfold field
  split
  · simp [Except.bind_eq_ok_iff, take, pure, Except.pure]
  · simp [Except.bind_eq_ok_iff, take, pure, Except.pure, and_left_comm]
  · simp [Except.bind_eq_ok_iff, take, pure, Except.pure, and_left_comm]
  · simp [Except.bind_eq_ok_iff, take, pure, Except.pure, and_left_comm]
  · rename_i name hurl huser hstatus hdiscovered
    rw [take_other hurl, take_other huser, take_other hstatus, take_other hdiscovered]
    simp
  · simp

/-- The parts of a draft. -/
def parts : DataSourceDraft ≃
    Option (Option String) × Option (Option String) × Option Status × Option Bool where
  toFun d := (d.url, d.user, d.status, d.discovered)
  invFun d := ⟨d.1, d.2.1, d.2.2.1, d.2.2.2⟩

/-- **Each part of the draft is filled by the fields that have its name.** -/
theorem foldlM_eq_ok_iff (fields : List (Option String × Json)) :
    fields.foldlM (fun d (name, value) => d.field name value) ({} : DataSourceDraft) = .ok d ↔
      (∀ field ∈ fields, field.1.isSome = true) ∧
      Slot TextForm (Json.under "url" fields) d.url ∧
      Slot TextForm (Json.under "userName" fields) d.user ∧
      Slot StatusForm (Json.under "status" fields) d.status ∧
      Slot MarkForm (Json.under "discovered" fields) d.discovered := by
  have hparts := ((takes_optionalText.follows "url").prod <|
    (takes_optionalText.follows "userName").prod <|
    (takes_status.follows "status").prod (takes_bool.follows "discovered")).each (·.1.isSome = true)
  exact (hparts.comap parts).foldlM_eq_ok_iff (fun _ _ _ => field_eq_ok_iff) fields d

/-- A data source record is finished if it has a status; what else is missing is filled in. -/
theorem finish_eq_ok_iff {r : DataSourceRecord} :
    d.finish = .ok r ↔ d.url.or (some none) = some r.url ∧ d.user.or (some none) = some r.user ∧
      d.status.or none = some r.status ∧ d.discovered.or (some false) = some r.discovered := by
  obtain ⟨url, user, status, discovered⟩ := d
  obtain ⟨rurl, ruser, rstatus, rdiscovered⟩ := r
  unfold finish
  split
  · simp_all [Option.or_some]
  · simp_all

end DataSourceDraft

/-- A data source record is taken in the forms of one. -/
theorem takes_dataSourceRecord : Takes dataSourceRecord DataSourceForm := by
  intro tree r
  cases tree with
  | object fields =>
    rw [dataSourceRecord, Except.bind_eq_ok_iff]
    simp only [DataSourceDraft.foldlM_eq_ok_iff, DataSourceDraft.finish_eq_ok_iff]
    constructor
    · rintro ⟨d, ⟨hnamed, hurl, huser, hstatus, hdiscovered⟩,
        hurl', huser', hstatus', hdiscovered'⟩
      exact ⟨hnamed, field_iff_slot.2 ⟨_, hurl, hurl'⟩, field_iff_slot.2 ⟨_, huser, huser'⟩,
        field_iff_slot.2 ⟨_, hstatus, hstatus'⟩, field_iff_slot.2 ⟨_, hdiscovered, hdiscovered'⟩⟩
    · rintro ⟨hnamed, hurl, huser, hstatus, hdiscovered⟩
      obtain ⟨url, hurl, hurl'⟩ := field_iff_slot.1 hurl
      obtain ⟨user, huser, huser'⟩ := field_iff_slot.1 huser
      obtain ⟨status, hstatus, hstatus'⟩ := field_iff_slot.1 hstatus
      obtain ⟨discovered, hdiscovered, hdiscovered'⟩ := field_iff_slot.1 hdiscovered
      exact ⟨⟨url, user, status, discovered⟩, ⟨hnamed, hurl, huser, hstatus, hdiscovered⟩,
        hurl', huser', hstatus', hdiscovered'⟩
  | array items =>
    show dataSourceRecord (.array (items.drop 0)) = .ok r ↔ _
    simp only [dataSourceRecord, Except.bind_eq_ok_iff, Prod.exists,
      takes_optionalText.next_eq_ok_iff, takes_status.next_eq_ok_iff,
      takes_bool.next_eq_ok_iff, noMore_eq_ok_iff, and_assoc, exists_and_left, exists_eq_left]
    constructor
    · rintro ⟨url, hurl, user, huser, status, hstatus, discovered, hdiscovered, hsize, rfl⟩
      exact ⟨hsize, hurl, huser, hstatus, hdiscovered⟩
    · rintro ⟨hsize, hurl, huser, hstatus, hdiscovered⟩
      exact ⟨_, hurl, _, huser, _, hstatus, _, hdiscovered, hsize, rfl⟩
  | null | bool | number | text | broken =>
    constructor
    · intro h
      cases h
    · intro h
      exact h.isRecord.elim

/-! ## Reading a document -/

namespace DocumentDraft

variable {d d' : DocumentDraft}

/-- One more field goes to the part of the draft that has its name. -/
theorem field_eq_ok_iff {name : Option String} {value : Json} :
    d.field name value = .ok d' ↔ name.isSome = true ∧
      take bool "persistent" d.persistent (name, value) = .ok d'.persistent ∧
      take (list socketRecord) "sockets" d.sockets (name, value) = .ok d'.sockets ∧
      take (list dataSourceRecord) "dataSources" d.dataSources (name, value) =
        .ok d'.dataSources := by
  obtain ⟨persistent, sockets, dataSources⟩ := d
  obtain ⟨persistent', sockets', dataSources'⟩ := d'
  unfold field
  split
  · simp [Except.bind_eq_ok_iff, take, pure, Except.pure]
  · simp [Except.bind_eq_ok_iff, take, pure, Except.pure, and_left_comm]
  · simp [Except.bind_eq_ok_iff, take, pure, Except.pure, and_left_comm]
  · rename_i name hpersistent hsockets hdataSources
    rw [take_other hpersistent, take_other hsockets, take_other hdataSources]
    simp
  · simp

/-- The parts of a draft. -/
def parts : DocumentDraft ≃
    Option Bool × Option (List SocketRecord) × Option (List DataSourceRecord) where
  toFun d := (d.persistent, d.sockets, d.dataSources)
  invFun d := ⟨d.1, d.2.1, d.2.2⟩

/-- **Each part of the draft is filled by the fields that have its name.** -/
theorem foldlM_eq_ok_iff (fields : List (Option String × Json)) :
    fields.foldlM (fun d (name, value) => d.field name value) ({} : DocumentDraft) = .ok d ↔
      (∀ field ∈ fields, field.1.isSome = true) ∧
      Slot MarkForm (Json.under "persistent" fields) d.persistent ∧
      Slot (ListForm SocketForm) (Json.under "sockets" fields) d.sockets ∧
      Slot (ListForm DataSourceForm) (Json.under "dataSources" fields) d.dataSources := by
  have hparts := ((takes_bool.follows "persistent").prod <|
    (takes_socketRecord.list.follows "sockets").prod
      (takes_dataSourceRecord.list.follows "dataSources")).each (·.1.isSome = true)
  exact (hparts.comap parts).foldlM_eq_ok_iff (fun _ _ _ => field_eq_ok_iff) fields d

/-- A document is finished in any case; what is missing is filled in. -/
theorem finish_eq_iff {doc : Document} :
    d.finish = doc ↔ d.persistent.or (some false) = some doc.persistent ∧
      d.sockets.or (some []) = some doc.sockets ∧
      d.dataSources.or (some []) = some doc.dataSources := by
  obtain ⟨persistent, sockets, dataSources⟩ := d
  obtain ⟨persistent', sockets', dataSources'⟩ := doc
  simp [finish, Option.or_some]

end DocumentDraft

/-- **A tree is read as a document exactly if it is a form of it.** -/
theorem takes_document : Takes document DocumentForm := by
  intro tree d
  cases tree with
  | object fields =>
    rw [document, Except.bind_eq_ok_iff]
    simp only [DocumentDraft.foldlM_eq_ok_iff, pure, Except.pure, Except.ok.injEq,
      DocumentDraft.finish_eq_iff]
    constructor
    · rintro ⟨draft, ⟨hnamed, hpersistent, hsockets, hdataSources⟩,
        hpersistent', hsockets', hdataSources'⟩
      exact ⟨hnamed, field_iff_slot.2 ⟨_, hpersistent, hpersistent'⟩,
        field_iff_slot.2 ⟨_, hsockets, hsockets'⟩,
        field_iff_slot.2 ⟨_, hdataSources, hdataSources'⟩⟩
    · rintro ⟨hnamed, hpersistent, hsockets, hdataSources⟩
      obtain ⟨persistent, hpersistent, hpersistent'⟩ := field_iff_slot.1 hpersistent
      obtain ⟨sockets, hsockets, hsockets'⟩ := field_iff_slot.1 hsockets
      obtain ⟨dataSources, hdataSources, hdataSources'⟩ := field_iff_slot.1 hdataSources
      exact ⟨⟨persistent, sockets, dataSources⟩, ⟨hnamed, hpersistent, hsockets, hdataSources⟩,
        hpersistent', hsockets', hdataSources'⟩
  | array items =>
    show document (.array (items.drop 0)) = .ok d ↔ _
    simp only [document, Except.bind_eq_ok_iff, Prod.exists, takes_bool.next_eq_ok_iff,
      takes_socketRecord.list.next_eq_ok_iff, takes_dataSourceRecord.list.next_eq_ok_iff,
      noMore_eq_ok_iff, and_assoc, exists_and_left, exists_eq_left]
    constructor
    · rintro ⟨persistent, hpersistent, sockets, hsockets, dataSources, hdataSources, hsize, rfl⟩
      exact ⟨hsize, hpersistent, hsockets, hdataSources⟩
    · rintro ⟨hsize, hpersistent, hsockets, hdataSources⟩
      exact ⟨_, hpersistent, _, hsockets, _, hdataSources, hsize, rfl⟩
  | null | bool | number | text | broken =>
    constructor
    · intro h
      cases h
    · intro h
      exact h.isRecord.elim

end Decode

/-! ## Forms that every value has -/

/-- A port is the number of its digits, and so it is in a text with blanks around them. -/
theorem portForm_toString (port : UInt16) {before behind : String}
    (hbefore : Text.AllBlank before) (hbehind : Text.AllBlank behind) :
    PortForm (.number (toString port)) (some port) ∧
      PortForm (.text (some (before ++ toString port ++ behind))) (some port) := by
  have hdigits : Text.Numeral (toString port).toList port.toNat := by
    rw [Text.toList_toString_uint16]
    exact Text.numeral_written port.toNat
  exact ⟨.number (.natural hdigits), .text ⟨before, behind, hbefore, hbehind, rfl⟩ (.bare hdigits)⟩

/-- The digits of a code, after its sign if it is negative, spell that code. -/
theorem Json.whole_toString (n : Int) : Json.Whole (toString n) n := by
  cases n with
  | ofNat n =>
    refine .natural ?_
    show Text.Numeral (toString n).toList n
    rw [Text.toList_toString_nat]
    exact Text.numeral_written n
  | negSucc n =>
    exact .negative (Text.toList_toString_negSucc n) (Text.numeral_written (n + 1))
      (Nat.succ_ne_zero n)

/-- A status is every code of it, as a number and as a text. -/
theorem statusForm_toString (n : Int64) :
    StatusForm (.number (toString n)) (.ofCode n.toInt) ∧
      StatusForm (.text (some (toString n))) (.ofCode n.toInt) :=
  ⟨.code (Json.whole_toString n.toInt), .text (Status.reads_toString n)⟩

/-! ## Faults -/

/-- A value that is **no port**: a number that is not whole or that sixteen bits do not hold, a text
that is neither blank nor a star nor a number that they hold, or no number and no text at all. -/
inductive PortFault : Json → Prop where
  | outside {literal : String} {n : Int} (h : Json.Whole literal n) (hn : n < 0 ∨ 65535 < n) :
      PortFault (.number literal)
  | notWhole {literal : String} (h : ∀ n, ¬ Json.Whole literal n) : PortFault (.number literal)
  | text {s : String} (hblank : ¬ Text.AllBlank s) (hstar : ¬ Text.Spaced "*" s)
      (hport : ∀ (digits : String) (port : UInt16), Text.Spaced digits s →
        ¬ Text.Unsigned digits.toList port.toNat) : PortFault (.text (some s))
  | bool (b : Bool) : PortFault (.bool b)
  | array (items : List Json) : PortFault (.array items)
  | object (fields : List (Option String × Json)) : PortFault (.object fields)

/-- A value that is **no status**: neither text nor number, a number that is no code, or a text
that says no status. -/
inductive StatusFault : Json → Prop where
  | null : StatusFault .null
  | bool (b : Bool) : StatusFault (.bool b)
  | array (items : List Json) : StatusFault (.array items)
  | object (fields : List (Option String × Json)) : StatusFault (.object fields)
  | number {literal : String} (h : ∀ n : Int64, ¬ Json.Whole literal n.toInt) :
      StatusFault (.number literal)
  | text {s : String} (h : ∀ status, ¬ Status.Reads s status) : StatusFault (.text (some s))

/-- A socket record with a value that is no port or no status. -/
inductive SocketFault (record : Json) : Prop where
  | port {value : Json} (h : value ∈ record.said 1 "port") (hfault : PortFault value)
  | status {value : Json} (h : value ∈ record.said 2 "status") (hfault : StatusFault value)

/-- A data source record with a value that is no status. -/
inductive DataSourceFault (record : Json) : Prop where
  | status {value : Json} (h : value ∈ record.said 2 "status") (hfault : StatusFault value)

/-- A document with such a record among its records. -/
inductive DocumentFault (tree : Json) : Prop where
  | socket {records : List Json} {record : Json} (h : .array records ∈ tree.said 1 "sockets")
      (hrecord : record ∈ records) (hfault : SocketFault record)
  | dataSource {records : List Json} {record : Json}
      (h : .array records ∈ tree.said 2 "dataSources") (hrecord : record ∈ records)
      (hfault : DataSourceFault record)

/-- What is at fault as a port is no form of one. -/
theorem PortFault.not_form {value : Json} (h : PortFault value) (port : Option UInt16) :
    ¬ PortForm value port := by
  intro hform
  cases hform with
  | null => cases h
  | blank hblank =>
    cases h with
    | text h _ _ => exact h hblank
  | star hstar =>
    cases h with
    | text _ h _ => exact h hstar
  | text hspaced hdigits =>
    cases h with
    | text _ _ h => exact h _ _ hspaced hdigits
  | @number _ port hwhole =>
    cases h with
    | outside h hn =>
      have hbound := port.toNat_lt
      have heq := h.unique hwhole
      omega
    | notWhole h => exact h _ hwhole

/-- What is at fault as a status is no form of one. -/
theorem StatusFault.not_form {value : Json} (h : StatusFault value) (status : Status) :
    ¬ StatusForm value status := by
  intro hform
  cases hform with
  | text hreads =>
    cases h with
    | text h => exact h _ hreads
  | code hwhole =>
    cases h with
    | number h => exact h _ hwhole

/-- What is written in a field that comes to a value is a form of that value. -/
theorem Field.form_of_mem {α : Type} {form : Json → α → Prop} {absent : Option α}
    {values : List Json} {a : α} (h : Field form absent values a) {value : Json}
    (hvalue : value ∈ values) : form value a := by
  cases h with
  | absent _ => cases hvalue
  | once h =>
    rw [List.mem_singleton.1 hvalue]
    exact h

/-- What is at fault as a socket record is no form of one. -/
theorem SocketFault.not_form {record : Json} (h : SocketFault record) (r : SocketRecord) :
    ¬ SocketForm record r := by
  intro hform
  cases h with
  | port h hfault => exact hfault.not_form _ (hform.port.form_of_mem h)
  | status h hfault => exact hfault.not_form _ (hform.status.form_of_mem h)

/-- What is at fault as a data source record is no form of one. -/
theorem DataSourceFault.not_form {record : Json} (h : DataSourceFault record)
    (r : DataSourceRecord) : ¬ DataSourceForm record r := by
  intro hform
  cases h with
  | status h hfault => exact hfault.not_form _ (hform.status.form_of_mem h)

/-- Every item of a list is in a form. -/
theorem ListForm.exists_form {α : Type} {form : Json → α → Prop} {items : List Json}
    {values : List α} (h : ListForm form (.array items) values) {item : Json}
    (hitem : item ∈ items) : ∃ a, form item a := by
  cases h with
  | array h =>
    induction h with
    | nil => cases hitem
    | cons hfirst _ ih =>
      rcases List.mem_cons.1 hitem with rfl | hitem
      · exact ⟨_, hfirst⟩
      · exact ih hitem

/-- **One fault spoils the whole document.** -/
theorem DocumentFault.not_form {tree : Json} (h : DocumentFault tree) (d : Document) :
    ¬ DocumentForm tree d := by
  intro hform
  cases h with
  | socket h hrecord hfault =>
    obtain ⟨r, hr⟩ := (hform.sockets.form_of_mem h).exists_form hrecord
    exact hfault.not_form r hr
  | dataSource h hrecord hfault =>
    obtain ⟨r, hr⟩ := (hform.dataSources.form_of_mem h).exists_form hrecord
    exact hfault.not_form r hr

/-! ## Sources -/

/-- **Every form of a document is read as that document, and nothing else is.** -/
theorem Document.parse_eq_ok_iff {source : Json.Source} {d : Document} :
    Document.parse source = .ok d ↔
      (Json.read source).alone = true ∧ DocumentForm (Json.read source).tree d := by
  have hdocument := Decode.takes_document (Json.read source).tree
  rw [Document.parse, Decode.source, Except.bind_eq_ok_iff]
  cases (Json.read source).alone with
  | true => simp [hdocument, pure, Except.pure]
  | false => simp [throw, throwThe, MonadExceptOf.throw]

/-- **Every form of a document is read as that document.**  A source is read as a document exactly
if it is one tree that is a form of the document, and the text that the document is written as is
one of these; a source with a port or a status that has no form is refused.  The digits of a port
are a form of it, as a number and as a text with blanks around them; so are the digits of every code
of a status; and a text is a form of the status that it is read as. -/
theorem document_forms_exact :
    (∀ (source : Json.Source) (d : Document),
      Document.parse source = .ok d ↔
        (Json.read source).alone = true ∧ DocumentForm (Json.read source).tree d) ∧
    (∀ d : Document, Document.ofText d.compact = .ok d) ∧
    (∀ source : Json.Source, DocumentFault (Json.read source).tree →
      ∃ e, Document.parse source = .error e) ∧
    (∀ (port : UInt16) (before behind : String), Text.AllBlank before → Text.AllBlank behind →
      PortForm (.number (toString port)) (some port) ∧
        PortForm (.text (some (before ++ toString port ++ behind))) (some port)) ∧
    (∀ n : Int64,
      StatusForm (.number (toString n)) (.ofCode n.toInt) ∧
        StatusForm (.text (some (toString n))) (.ofCode n.toInt)) ∧
    ∀ (s : String) (status : Status),
      StatusForm (.text (some s)) status ↔ Status.parse s = .ok status := by
  refine ⟨fun _ _ => Document.parse_eq_ok_iff, Document.ofText_compact, ?_, ?_,
    statusForm_toString, ?_⟩
  · intro source hfault
    cases hparse : Document.parse source with
    | error e => exact ⟨e, rfl⟩
    | ok d => exact absurd (Document.parse_eq_ok_iff.1 hparse).2 (hfault.not_form d)
  · intro port before behind hbefore hbehind
    exact portForm_toString port hbefore hbehind
  · intro s status
    rw [Status.parse_eq_ok_iff]
    constructor
    · intro h
      cases h with
      | text h => exact h
    · exact .text

/-- The older layout: codes for statuses, a port as a number, and fields in any order. -/
example :
    Document.ofText ("\x7b\"dataSources\":[\x7b\"status\":0,\"userName\":\"sa\"\x7d]," ++
        "\"sockets\":[[\"db\",\" 5432\",-1],\x7b\"status\":\"250\",\"port\":6379\x7d]\x7d") =
      .ok {
        sockets := [
          { host := some "db", port := some 5432, status := .closed },
          { port := some 6379, status := .throttle 250 }]
        dataSources := [{ user := some "sa", status := .opened }] } := by decide +kernel

/-- A document whose port is one too great. -/
def portTooGreat : String := "\x7b\"sockets\":[\x7b\"port\":65536,\"status\":0\x7d]\x7d"

/-- A port that is one too great spoils its document; the greatest port may have a line feed behind
it. -/
theorem document_forms_exact_portTooGreat :
    DocumentFault (Json.read (Json.Source.ofText portTooGreat)).tree ∧
      (∃ e, Document.ofText portTooGreat = .error e) ∧
      Text.AllBlank "" ∧ Text.AllBlank "\n" ∧
      PortForm (.text (some ("" ++ "65535" ++ "\n"))) (some 65535) := by
  have htree : (Json.read (Json.Source.ofText portTooGreat)).tree =
      .object [(some "sockets", .array [.object
        [(some "port", .number "65536"), (some "status", .number "0")]])] := rfl
  have hfault : DocumentFault (Json.read (Json.Source.ofText portTooGreat)).tree := by
    rw [htree]
    refine .socket List.mem_cons_self List.mem_cons_self (.port List.mem_cons_self ?_)
    exact .outside (Json.whole_toString 65536) (.inr (by decide))
  have hnone : Text.AllBlank "" := Text.allBlank_of_all rfl
  have hfeed : Text.AllBlank "\n" := Text.allBlank_of_all rfl
  exact ⟨hfault, document_forms_exact.2.2.1 _ hfault, hnone, hfeed,
    (document_forms_exact.2.2.2.1 65535 "" "\n" hnone hfeed).2⟩

/-- A text that says in so many words that a port is left open, or has the digits of one and no more
than blanks around them. -/
def PlainPortText (s : String) : Prop :=
  Text.AllBlank s ∨ s = "*" ∨ ∃ port : UInt16, Text.Spaced (toString port) s

/-- A port between blanks is all digits when it is trimmed. -/
theorem isDigit_of_spaced {s : String} {port : UInt16} (h : Text.Spaced (toString port) s) :
    ∀ c ∈ (Text.trim s).toList, c.isDigit = true := by
  have hwritten : ∀ c ∈ (toString port).toList, c.isDigit = true := by
    rw [Text.toList_toString_uint16]
    exact fun c => Text.isDigit_of_mem_written
  have hbare := Text.bare_of_no_blank fun c hc => Text.isBlank_of_isDigit (hwritten c hc)
  rw [(Text.spaced_iff_trim hbare).1 h]
  exact hwritten

/-- **More texts are ports than the plain ones**: the star may have blanks around it as well, and a
port may have a plus sign and leading zeros. -/
theorem loose_port_texts_are_read :
    ¬ PlainPortText " * " ∧ ¬ PlainPortText "+080" ∧
      Document.ofText ("\x7b\"sockets\":[\x7b\"port\":\" * \",\"status\":\"OPEN\"\x7d," ++
          "\x7b\"port\":\"+080\",\"status\":\"OPEN\"\x7d]\x7d") =
        .ok { sockets := [{ status := .opened }, { port := some 80, status := .opened }] } := by
  have hstar : Text.trim " * " = "*" := by decide +kernel
  have hplus : Text.trim "+080" = "+080" := by decide +kernel
  refine ⟨?_, ?_, by decide +kernel⟩
  · rintro (hblank | hplain | ⟨port, hport⟩)
    · rw [Text.allBlank_iff_trim, hstar] at hblank
      exact absurd hblank (by decide)
    · exact absurd hplain (by decide)
    · have hdigit := isDigit_of_spaced hport '*' (hstar ▸ List.mem_singleton_self '*')
      exact absurd hdigit (by decide)
  · rintro (hblank | hplain | ⟨port, hport⟩)
    · rw [Text.allBlank_iff_trim, hplus] at hblank
      exact absurd hblank (by decide)
    · exact absurd hplain (by decide)
    · have hdigit := isDigit_of_spaced hport '+' (hplus ▸ List.mem_cons_self)
      exact absurd hdigit (by decide)

end Wiretap
