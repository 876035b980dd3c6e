import Wiretap.Proofs.Policy.Merging
/-!
# One registry, one text

A registry keeps its rules by pattern, in no order that shows: a document may list its records in
any order as long as no two of them share a pattern, and of those that do the last one stands.
Going the other way, a registry is listed in the order of its patterns.  That order is strict, so
there is one listing for each registry, and one text.

* `Registry.get?_sockets_ofDocument` — the rule of a pattern is that of its last record;
* `Registry.same_of_shuffles` — records with different patterns may be moved;
* `Registry.listing` — what is listed, and in which order;
* `Registry.toJson_eq_iff` — registries have one text exactly if they are the same.
-/

namespace Wiretap

/-! ## The last record of a pattern -/

/-- The pattern that a record is about, with its host in lower case. -/
def SocketRecord.pattern (record : SocketRecord) : SocketPattern := .of record.host record.port

/-- The rule that a record writes. -/
def SocketRecord.rule (record : SocketRecord) : Rule := ⟨record.status, record.discovered⟩

/-- The pattern that a record is about. -/
def DataSourceRecord.pattern (record : DataSourceRecord) : DataSourcePattern :=
  ⟨record.url, record.user⟩

/-- The rule that a record writes. -/
def DataSourceRecord.rule (record : DataSourceRecord) : Rule := ⟨record.status, record.discovered⟩

section Last

variable {ρ κ ν : Type} [DecidableEq κ] (key : ρ → κ) (value : ρ → ν)

/-- Looking up from behind finds the last row of a key. -/
theorem lookup_reverse_map (rows : List ρ) (k : κ) :
    (rows.map fun row => (key row, value row)).reverse.lookup k =
      ((rows.filter fun row => key row = k).getLast?).map value := by
  induction rows using List.reverseRecOn with
  | nil => rfl
  | append_singleton rows row ih =>
    rw [List.map_append, List.reverse_append, List.map_singleton, List.reverse_singleton,
      List.singleton_append, List.lookup_cons, ih, List.filter_append]
    by_cases hkey : key row = k
    · have hlast : [row].filter (fun row => key row = k) = [row] := by simp [hkey]
      rw [hlast, List.getLast?_concat, hkey, BEq.rfl]
      rfl
    · have hlast : [row].filter (fun row => key row = k) = [] := by simp [hkey]
      rw [hlast, List.append_nil, beq_eq_false_iff_ne.2 (Ne.symm hkey)]

/-- Where no two rows share a key, the last row of a key is any row of that key. -/
theorem getLast?_filter_eq_some_iff {rows : List ρ} (h : (rows.map key).Nodup) {k : κ} {row : ρ} :
    (rows.filter fun row => key row = k).getLast? = some row ↔ row ∈ rows ∧ key row = k := by
  have hmem : ∀ found, found ∈ (rows.filter fun row => key row = k) ↔
      found ∈ rows ∧ key found = k := by
    intro found
    rw [List.mem_filter, decide_eq_true_eq]
  constructor
  · intro hlast
    exact (hmem row).1 (List.mem_of_getLast? hlast)
  · intro hrow
    have hfiltered := (hmem row).2 hrow
    obtain ⟨last, hlast⟩ : ∃ last, (rows.filter fun row => key row = k).getLast? = some last :=
      Option.isSome_iff_exists.1 (by simpa using List.ne_nil_of_mem hfiltered)
    obtain ⟨hfound, hkey⟩ := (hmem last).1 (List.mem_of_getLast? hlast)
    have hsame : last = row := List.inj_on_of_nodup_map h hfound hrow.1 (hkey.trans hrow.2.symm)
    rw [hlast, hsame]

/-- Such rows may be moved. -/
theorem getLast?_filter_of_perm {rows rows' : List ρ} (hperm : rows.Perm rows')
    (h : (rows.map key).Nodup) (k : κ) :
    (rows.filter fun row => key row = k).getLast? =
      (rows'.filter fun row => key row = k).getLast? := by
  have h' : (rows'.map key).Nodup := (hperm.map key).nodup_iff.1 h
  refine Option.ext fun row => ?_
  rw [getLast?_filter_eq_some_iff key h, getLast?_filter_eq_some_iff key h', hperm.mem_iff]

end Last

namespace Document

/-- The records of two documents are the same, but for their order. -/
structure Shuffles (d d' : Document) : Prop where
  persistent : d.persistent = d'.persistent
  sockets : d.sockets.Perm d'.sockets
  dataSources : d.dataSources.Perm d'.dataSources

/-- No two records of a document are about one pattern. -/
structure Distinct (d : Document) : Prop where
  sockets : (d.sockets.map SocketRecord.pattern).Nodup
  dataSources : (d.dataSources.map DataSourceRecord.pattern).Nodup

end Document

namespace Registry

variable {r r' : Registry}

/-- **The rule of a socket pattern is that of its last record**, and without a record there is
none. -/
theorem get?_sockets_ofDocument (d : Document) (p : SocketPattern) :
    (ofDocument d).sockets.get? p =
      ((d.sockets.filter fun record => record.pattern = p).getLast?).map SocketRecord.rule := by
  rw [← lookup_reverse_map, ofDocument, (get?_apply {} d).1]
  exact Option.or_none

/-- The rule of a data source pattern is that of its last record. -/
theorem get?_dataSources_ofDocument (d : Document) (p : DataSourcePattern) :
    (ofDocument d).dataSources.get? p =
      ((d.dataSources.filter fun record => record.pattern = p).getLast?).map
        DataSourceRecord.rule := by
  rw [← lookup_reverse_map, ofDocument, (get?_apply {} d).2]
  exact Option.or_none

/-- Two registries are the **same** if they have the same rules, and are both to be kept or both
not. -/
structure Same (r r' : Registry) : Prop where
  sockets : ∀ p, r.sockets.get? p = r'.sockets.get? p
  dataSources : ∀ p, r.dataSources.get? p = r'.dataSources.get? p
  persistent : r.persistent = r'.persistent

/-- **Records with different patterns may be moved.** -/
theorem same_of_shuffles {d d' : Document} (hdistinct : d.Distinct) (h : d.Shuffles d') :
    (ofDocument d).Same (ofDocument d') where
  sockets p := by
    rw [get?_sockets_ofDocument, get?_sockets_ofDocument,
      getLast?_filter_of_perm _ h.sockets hdistinct.sockets]
  dataSources p := by
    rw [get?_dataSources_ofDocument, get?_dataSources_ofDocument,
      getLast?_filter_of_perm _ h.dataSources hdistinct.dataSources]
  persistent := by
    rw [persistent_ofDocument, persistent_ofDocument, h.persistent]

/-- Registries that are the same agree, if their patterns are folded. -/
theorem Same.agrees (h : r.Same r') (hfolded : r.IsFolded) : r.Agrees r' :=
  agrees_of_entries hfolded (entries_eq_iff.2 ⟨h.sockets, h.dataSources⟩) h.persistent

end Registry

/-! ## Listings -/

/-- A pattern stands **before** another if its host does, or if the hosts are the same and its port
does.  What is left open stands before all that is named. -/
def SocketPattern.Before (p q : SocketPattern) : Prop :=
  p.host < q.host ∨ p.host = q.host ∧ p.port < q.port

/-- A pattern stands before another if its URL does, or if the URLs are the same and its user
does. -/
def DataSourcePattern.Before (p q : DataSourcePattern) : Prop :=
  p.url < q.url ∨ p.url = q.url ∧ p.user < q.user

/-- What is left open comes first, and what is named comes in its own order. -/
theorem compare_option_eq_lt {α : Type} [Ord α] [LT α] (h : ∀ a b : α, compare a b = .lt ↔ a < b)
    (a b : Option α) : compare a b = .lt ↔ a < b := by
  cases a with
  | none =>
    cases b with
    | none => exact iff_of_false nofun Option.not_lt_none
    | some b => exact iff_of_true rfl Option.none_lt_some
  | some a =>
    cases b with
    | none => exact iff_of_false nofun Option.not_lt_none
    | some b => exact (h a b).trans Option.some_lt_some.symm

/-- Optional texts are compared as they are ordered, and none comes first. -/
theorem compare_text_eq_lt (a b : Option String) : compare a b = .lt ↔ a < b :=
  compare_option_eq_lt (fun _ _ => compareOfLessAndEq_eq_lt) a b

/-- Socket patterns are sorted as they are said to stand. -/
theorem SocketPattern.order_eq_lt_iff {p q : SocketPattern} : p.order q = .lt ↔ p.Before q := by
  rw [order, Ordering.then_eq_lt, compare_text_eq_lt, Std.compare_eq_iff_eq,
    compare_option_eq_lt fun _ _ => Std.compare_eq_lt]
  exact Iff.rfl

/-- So are data source patterns. -/
theorem DataSourcePattern.order_eq_lt_iff {p q : DataSourcePattern} :
    p.order q = .lt ↔ p.Before q := by
  rw [order, Ordering.then_eq_lt, compare_text_eq_lt, Std.compare_eq_iff_eq, compare_text_eq_lt]
  exact Iff.rfl

namespace Registry

variable {r r' : Registry}

/-- **A listing of a registry**: all its rules and no others, those about sockets first, and each
kind strictly in the order of its patterns. -/
structure Listing (r : Registry) (sockets : List (SocketPattern × Rule))
    (dataSources : List (DataSourcePattern × Rule)) : Prop where
  entries : r.entries =
    (sockets.map fun (pattern, rule) => Entry.socket pattern rule) ++
      dataSources.map fun (pattern, rule) => Entry.dataSource pattern rule
  sockets_rise : (sockets.map Prod.fst).Pairwise SocketPattern.Before
  dataSources_rise : (dataSources.map Prod.fst).Pairwise DataSourcePattern.Before
  mem_sockets : ∀ p rule, (p, rule) ∈ sockets ↔ r.sockets.get? p = some rule
  mem_dataSources : ∀ p rule, (p, rule) ∈ dataSources ↔ r.dataSources.get? p = some rule

/-- The sorted rows of a registry are a listing of it. -/
theorem listing (r : Registry) : r.Listing r.socketRows r.dataSourceRows where
  entries := rfl
  sockets_rise :=
    (r.sockets.sorted_keys_pairwise SocketPattern.order).imp SocketPattern.order_eq_lt_iff.1
  dataSources_rise :=
    (r.dataSources.sorted_keys_pairwise DataSourcePattern.order).imp
      DataSourcePattern.order_eq_lt_iff.1
  mem_sockets _ _ := Table.mem_sorted_iff r.sockets _
  mem_dataSources _ _ := Table.mem_sorted_iff r.dataSources _

/-! ## Texts -/

/-- **Registries have one document exactly if they are the same.** -/
theorem toDocument_eq_iff : r.toDocument = r'.toDocument ↔ r.Same r' := by
  have hrows : r.toDocument = r'.toDocument ↔ r.persistent = r'.persistent ∧
      r.socketRows = r'.socketRows ∧ r.dataSourceRows = r'.dataSourceRows := by
    have hsocket : Function.Injective fun row : SocketPattern × Rule =>
        (⟨row.1.host, row.1.port, row.2.status, row.2.discovered⟩ : SocketRecord) := by
      rintro ⟨⟨host, port⟩, ⟨status, discovered⟩⟩ ⟨⟨host', port'⟩, ⟨status', discovered'⟩⟩ h
      cases h
      rfl
    have hdataSource : Function.Injective fun row : DataSourcePattern × Rule =>
        (⟨row.1.url, row.1.user, row.2.status, row.2.discovered⟩ : DataSourceRecord) := by
      rintro ⟨⟨url, user⟩, ⟨status, discovered⟩⟩ ⟨⟨url', user'⟩, ⟨status', discovered'⟩⟩ h
      cases h
      rfl
    rw [toDocument, toDocument, Document.mk.injEq, hsocket.list_map.eq_iff,
      hdataSource.list_map.eq_iff]
  have hsockets : r.socketRows = r'.socketRows ↔ ∀ p, r.sockets.get? p = r'.sockets.get? p :=
    Table.sorted_eq_iff _
  have hdataSources : r.dataSourceRows = r'.dataSourceRows ↔
      ∀ p, r.dataSources.get? p = r'.dataSources.get? p :=
    Table.sorted_eq_iff _
  rw [hrows, hsockets, hdataSources]
  constructor
  · rintro ⟨hpersistent, hsocket, hdataSource⟩
    exact ⟨hsocket, hdataSource, hpersistent⟩
  · intro h
    exact ⟨h.persistent, h.sockets, h.dataSources⟩

/-- **Registries have one text exactly if they are the same**, since a text is read as one
document. -/
theorem toJson_eq_iff : r.toJson = r'.toJson ↔ r.Same r' := by
  rw [← toDocument_eq_iff]
  constructor
  · intro h
    have hread := Document.ofText_compact r.toDocument
    have htext : r.toDocument.compact = r'.toDocument.compact := h
    rw [htext, Document.ofText_compact] at hread
    exact (Except.ok.inj hread).symm
  · intro h
    rw [toJson, toJson, h]

/-- So it is for the text of a file. -/
theorem fileText_eq_iff : r.toDocument.fileText = r'.toDocument.fileText ↔ r.Same r' := by
  rw [← toDocument_eq_iff]
  constructor
  · intro h
    have hread := Document.ofBytes_fileText r.toDocument
    rw [h, Document.ofBytes_fileText] at hread
    exact (Except.ok.inj hread).symm
  · intro h
    rw [h]

end Registry

/-- **A registry is canonical.**  The registry of a document has for each pattern the rule of the
last record of that pattern, and no other rules; so records with different patterns may come in any
order.  Every registry is listed with its socket rules first and each kind strictly in the order of
its patterns.  And two registries have one text, on one line or in a file, exactly if they have the
same rules and are both to be kept or both not. -/
theorem registry_is_canonical :
    (∀ d : Document,
      (∀ p, (Registry.ofDocument d).sockets.get? p =
        ((d.sockets.filter fun record => record.pattern = p).getLast?).map SocketRecord.rule) ∧
      (∀ p, (Registry.ofDocument d).dataSources.get? p =
        ((d.dataSources.filter fun record => record.pattern = p).getLast?).map
          DataSourceRecord.rule) ∧
      (Registry.ofDocument d).persistent = d.persistent) ∧
    (∀ d d' : Document, d.Distinct → d.Shuffles d' →
      (Registry.ofDocument d).Same (.ofDocument d') ∧
      (Registry.ofDocument d).Agrees (.ofDocument d')) ∧
    (∀ r : Registry, ∃ sockets dataSources, r.Listing sockets dataSources) ∧
    ∀ r r' : Registry,
      (r.toJson = r'.toJson ↔ r.Same r') ∧
      (r.toDocument.fileText = r'.toDocument.fileText ↔ r.Same r') := by
  refine ⟨fun d => ?_, fun d d' hdistinct h => ?_, fun r => ⟨_, _, r.listing⟩, fun r r' => ?_⟩
  · exact ⟨Registry.get?_sockets_ofDocument d, Registry.get?_dataSources_ofDocument d,
      Registry.persistent_ofDocument d⟩
  · have hsame := Registry.same_of_shuffles hdistinct h
    exact ⟨hsame, hsame.agrees (Registry.isFolded_ofDocument d)⟩
  · exact ⟨Registry.toJson_eq_iff, Registry.fileText_eq_iff⟩

/-- Three rules of one host, written from the exact one to the one of any host. -/
def threeRules : Document where
  sockets := [
    { host := some "DB", port := some 5432, status := .closed },
    { host := some "db", port := none, status := .throttle 5 },
    { host := none, port := some 5432, status := .opened, discovered := true }]

/-- The three rules written the other way round make the same registry, with one text. -/
theorem registry_is_canonical_reversed :
    let reversed : Document := { threeRules with sockets := threeRules.sockets.reverse }
    threeRules.Distinct ∧ threeRules.Shuffles reversed ∧
      (Registry.ofDocument threeRules).Same (.ofDocument reversed) ∧
      (Registry.ofDocument threeRules).toJson = (Registry.ofDocument reversed).toJson := by
  intro reversed
  have hdistinct : threeRules.Distinct := ⟨by decide, by decide⟩
  have hshuffles : threeRules.Shuffles reversed := ⟨rfl, (List.reverse_perm _).symm, .rfl⟩
  obtain ⟨hsame, -⟩ := registry_is_canonical.2.1 threeRules reversed hdistinct hshuffles
  exact ⟨hdistinct, hshuffles, hsame, (registry_is_canonical.2.2.2 _ _).1.2 hsame⟩

end Wiretap
