import Wiretap.Proofs.Statement.Placeholders
import Wiretap.Tap.Sql
/-!
# The normal form, slice by slice and byte by byte

The normal form can be put together without touching the characters that stay: what stands between
one placeholder list and the next is copied as a **slice**, from one place in the text to another.
The places are counted in bytes, and the lists are sought in the bytes.

Reading bytes comes to the same as reading characters.  In UTF-8 a character of ASCII is its own
byte, and every byte of any other character is beyond ASCII, where no list has a sign.  So all lists
are found, no others are, and **no slice begins or ends inside a character**.

* `intercalate_slices` — the slices, with what replaces the lists between them, are the normal form;
* `replaced_bytes` — reading the bytes gives the bytes of the normal form;
* `boundary_of_mem_slicesFrom` — where the slices of the bytes begin and end;
* `normal_form_exact` — what the normal form of a statement text is.
-/

namespace Wiretap.Normal

/-! ## Slices -/

/-- The slices that are copied of a text, each by its first place and the place behind it.  `cs` is
what is not read yet and stands at `place`; the slice that is being read begins at `start`. -/
def slicesFrom : Nat → Nat → Nat → List Char → List (Nat × Nat)
  | 0, start, place, cs => [(start, place + cs.length)]
  | _, start, place, [] => [(start, place)]
  | fuel + 1, start, place, c :: r =>
    match listAt? (c :: r) with
    | some rest =>
      let behind := place + ((c :: r).length - rest.length)
      (start, place) :: slicesFrom fuel behind behind rest
    | none => slicesFrom fuel start (place + 1) r

/-- The slices that are copied of a text. -/
def slices (text : List Char) : List (Nat × Nat) := slicesFrom text.length 0 0 text

/-- What stands in a slice. -/
def cut (text : List Char) (slice : Nat × Nat) : List Char :=
  (text.drop slice.1).take (slice.2 - slice.1)

theorem slicesFrom_nil (fuel start place : Nat) :
    slicesFrom fuel start place [] = [(start, place)] := by
  cases fuel <;> rfl

/-- At a list the slice ends, and the next one begins behind it. -/
theorem slicesFrom_of_list {cs rest : List Char} (h : listAt? cs = some rest)
    (fuel start place : Nat) :
    slicesFrom (fuel + 1) start place cs =
      (start, place) :: slicesFrom fuel (place + (cs.length - rest.length))
        (place + (cs.length - rest.length)) rest := by
  cases cs with
  | nil => cases h
  | cons c r => rw [slicesFrom, h]

/-- Where no list begins, the slice goes on. -/
theorem slicesFrom_of_char {c : Char} {r : List Char} (h : listAt? (c :: r) = none)
    (fuel start place : Nat) :
    slicesFrom (fuel + 1) start place (c :: r) = slicesFrom fuel start (place + 1) r := by
  rw [slicesFrom, h]

/-- There is always a slice, if only an empty one. -/
theorem slicesFrom_ne_nil (fuel start place : Nat) (cs : List Char) :
    slicesFrom fuel start place cs ≠ [] := by
  induction fuel generalizing start place cs with
  | zero => exact List.cons_ne_nil _ _
  | succ fuel ih =>
    cases cs with
    | nil => exact List.cons_ne_nil _ _
    | cons c r =>
      rw [slicesFrom]
      split
      · exact List.cons_ne_nil _ _
      · exact ih _ _ _

/-- A slice that goes on to a later place. -/
theorem cut_append {text cs rest : List Char} {start place : Nat} (hle : start ≤ place)
    (hat : text.drop place = cs ++ rest) :
    cut text (start, place + cs.length) = cut text (start, place) ++ cs := by
  have hbetween : place - start + cs.length = place + cs.length - start := by omega
  have hdrop : (text.drop start).drop (place - start) = cs ++ rest := by
    rw [List.drop_drop, Nat.add_sub_cancel' hle, hat]
  show (text.drop start).take (place + cs.length - start) = (text.drop start).take _ ++ cs
  rw [← hbetween, List.take_add, hdrop, List.take_left]

/-- A slice that begins where it ends. -/
theorem cut_self (text : List Char) (place : Nat) : cut text (place, place) = [] := by
  rw [cut, Nat.sub_self, List.take_zero]

/-- **The normal form is the slices, with what replaces the lists between them.**  While the text is
read, this is so of the slice that was begun and what is not read yet. -/
theorem intercalate_slicesFrom {text : List Char} (fuel : Nat) {start place : Nat}
    (hle : start ≤ place) {cs : List Char} (hat : text.drop place = cs) :
    standIn.intercalate ((slicesFrom fuel start place cs).map (cut text)) =
      cut text (start, place) ++ replaceLists fuel cs := by
  induction fuel generalizing start place cs with
  | zero =>
    have hat' : text.drop place = cs ++ [] := by rw [hat, List.append_nil]
    rw [slicesFrom, List.map_singleton, List.intercalate_singleton, cut_append hle hat',
      replaceLists]
  | succ fuel ih =>
    cases cs with
    | nil =>
      rw [slicesFrom_nil, List.map_singleton, List.intercalate_singleton, replaceLists,
        List.append_nil]
      exact Nat.succ_ne_zero fuel
    | cons c r =>
      rw [slicesFrom, replaceLists_succ]
      cases hlist : listAt? (c :: r) with
      | some rest =>
        obtain ⟨list, -, hsplit⟩ := placeholderList_of_listAt? hlist
        have hlength : (c :: r).length - rest.length = list.length := by
          rw [hsplit, List.length_append, Nat.add_sub_cancel]
        have hbehind : text.drop (place + list.length) = rest := by
          rw [← List.drop_drop, hat, hsplit, List.drop_left]
        have hrest := ih (Nat.le_refl (place + list.length)) hbehind
        have hne : (slicesFrom fuel (place + list.length) (place + list.length) rest).map
            (cut text) ≠ [] := by
          rw [Ne, List.map_eq_nil_iff]
          exact slicesFrom_ne_nil _ _ _ _
        simp only [hlength, List.map_cons]
        rw [List.intercalate_cons_of_ne_nil hne, hrest, cut_self, List.nil_append,
          List.append_assoc]
      | none =>
        have hone : text.drop place = [c] ++ r := hat
        have hnext : text.drop (place + 1) = r := by
          rw [← List.drop_drop, hat, List.drop_succ_cons, List.drop_zero]
        have hlonger : cut text (start, place + 1) = _ := cut_append hle hone
        simp only [ih (Nat.le_succ_of_le hle) hnext, hlonger, List.append_assoc,
          List.singleton_append]

/-- The slices with the stand-in between them are the text in which the lists are replaced. -/
theorem intercalate_slices (text : List Char) :
    standIn.intercalate ((slices text).map (cut text)) = replaced text := by
  rw [slices, intercalate_slicesFrom text.length (Nat.le_refl 0) List.drop_zero, cut_self,
    List.nil_append, replaced]

/-! ## Bytes -/

/-- The bytes of a text in UTF-8, each read as the character that has its number. -/
def bytes (cs : List Char) : List Char := (cs.flatMap String.utf8EncodeChar).map Char.ofUInt8

/-- The bytes of texts one behind the other are one behind the other. -/
theorem bytes_append (cs cs' : List Char) : bytes (cs ++ cs') = bytes cs ++ bytes cs' := by
  rw [bytes, List.flatMap_append, List.map_append, bytes, bytes]

theorem bytes_cons (c : Char) (r : List Char) : bytes (c :: r) = bytes [c] ++ bytes r :=
  bytes_append [c] r

theorem bytes_ne_nil (c : Char) : bytes [c] ≠ [] := by
  rw [bytes, List.flatMap_singleton, Ne, List.map_eq_nil_iff]
  exact String.utf8EncodeChar_ne_nil

/-- A character of ASCII is its own byte. -/
theorem bytes_of_ascii {c : Char} (h : c.toNat < 128) : bytes [c] = [c] := by
  have hone : String.utf8EncodeChar c = [UInt8.ofNat c.val.toNat] :=
    if_pos (Nat.le_of_lt_succ h)
  have hbyte : (UInt8.ofNat c.val.toNat).toUInt32.toNat = c.toNat := by
    rw [UInt8.toNat_toUInt32]
    exact UInt8.toNat_ofNat_of_lt' (Nat.lt_trans h (by decide))
  rw [bytes, List.flatMap_singleton, hone, List.map_singleton]
  exact congrArg (fun d => [d]) (Char.ext (UInt32.toNat_inj.1 hbyte))

/-- **Foreign** to placeholder lists are the characters beyond ASCII. -/
def Foreign (c : Char) : Prop := 128 ≤ c.toNat

/-- Every byte of a character beyond ASCII is beyond ASCII too.  There are three lengths. -/
theorem foreign_bytes {c : Char} (h : Foreign c) : ∀ b ∈ bytes [c], Foreign b := by
  have hbyte : ∀ b ∈ String.utf8EncodeChar c, 128 ≤ b.toNat := by
    have hhigh : ∀ n, 128 ≤ n → n < 256 → 128 ≤ (UInt8.ofNat n).toNat := by
      intro n hlow hlt
      rwa [UInt8.toNat_ofNat_of_lt' hlt]
    have hlong : ¬ c.val.toNat ≤ 0x7f := Nat.not_le.2 h
    intro b hb
    simp only [String.utf8EncodeChar, if_neg hlong] at hb
    split at hb
    · simp only [List.mem_cons, List.not_mem_nil, or_false] at hb
      rcases hb with rfl | rfl
      all_goals exact hhigh _ (by omega) (by omega)
    · split at hb
      · simp only [List.mem_cons, List.not_mem_nil, or_false] at hb
        rcases hb with rfl | rfl | rfl
        all_goals exact hhigh _ (by omega) (by omega)
      · simp only [List.mem_cons, List.not_mem_nil, or_false] at hb
        rcases hb with rfl | rfl | rfl | rfl
        all_goals exact hhigh _ (by omega) (by omega)
  intro b hb
  rw [bytes, List.flatMap_singleton] at hb
  obtain ⟨byte, hmem, rfl⟩ := List.mem_map.1 hb
  have hnumber : (Char.ofUInt8 byte).toNat = byte.toNat := UInt8.toNat_toUInt32 byte
  rw [Foreign, hnumber]
  exact hbyte byte hmem

theorem Foreign.ne {c sign : Char} (h : Foreign c) (hsign : sign.toNat < 128) : c ≠ sign := by
  rintro rfl
  exact absurd hsign (Nat.not_lt.2 h)

theorem Foreign.isAsciiBlank {c : Char} (h : Foreign c) : Text.isAsciiBlank c = false := by
  simp only [Text.isAsciiBlank, Bool.or_eq_false_iff, beq_eq_false_iff_ne]
  exact ⟨⟨⟨⟨h.ne (by decide), h.ne (by decide)⟩, h.ne (by decide)⟩, h.ne (by decide)⟩,
    h.ne (by decide)⟩

/-- No list has a foreign sign, so any reading ends at one. -/
theorem listEnd?_foreign {c : Char} (h : Foreign c) (seek : Seek) (r : List Char) :
    listEnd? seek (c :: r) = none := by
  have hi : ¬ c.toLower = 'i' := by
    rw [toLower_eq_i_iff, not_or]
    exact ⟨h.ne (by decide), h.ne (by decide)⟩
  have hn : ¬ c.toLower = 'n' := by
    rw [toLower_eq_n_iff, not_or]
    exact ⟨h.ne (by decide), h.ne (by decide)⟩
  have hopening : c ≠ '(' := h.ne (by decide)
  have hmark : c ≠ '?' := h.ne (by decide)
  have hcomma : c ≠ ',' := h.ne (by decide)
  have hclosing : c ≠ ')' := h.ne (by decide)
  cases seek <;> simp [listEnd?, h.isAsciiBlank, hi, hn, hopening, hmark, hcomma, hclosing]

/-- No list begins with what is foreign. -/
theorem listAt?_foreign {c : Char} (h : Foreign c) (r : List Char) : listAt? (c :: r) = none := by
  rw [listAt?, h.isAsciiBlank, if_neg Bool.false_ne_true]

/-- The bytes of a foreign character begin with a foreign one. -/
theorem Foreign.bytes_cons {c : Char} (h : Foreign c) (r : List Char) :
    ∃ b more, Foreign b ∧ bytes (c :: r) = b :: more := by
  obtain ⟨b, more, hbytes⟩ := List.exists_cons_of_ne_nil (bytes_ne_nil c)
  refine ⟨b, more ++ bytes r, foreign_bytes h b (hbytes ▸ List.mem_cons_self), ?_⟩
  rw [Normal.bytes_cons, hbytes, List.cons_append]

/-- **Lists end in the bytes where they end in the text.** -/
theorem listEnd?_bytes (seek : Seek) (cs : List Char) :
    listEnd? seek (bytes cs) = (listEnd? seek cs).map bytes := by
  induction cs generalizing seek with
  | nil => cases seek <;> rfl
  | cons c r ih =>
    rcases Nat.lt_or_ge c.toNat 128 with hascii | hforeign
    · rw [bytes_cons, bytes_of_ascii hascii, List.singleton_append]
      rcases listEnd?_step seek c with hends | ⟨next, hgoes⟩ | hfound
      · rw [hends, hends, Option.map_none]
      · rw [hgoes, hgoes, ih]
      · rw [hfound, hfound, Option.map_some]
    · obtain ⟨b, more, hb, hbytes⟩ := Foreign.bytes_cons hforeign r
      rw [hbytes, listEnd?_foreign hb, listEnd?_foreign hforeign, Option.map_none]

/-- A list is found among bytes where it is found among characters. -/
theorem listAt?_bytes (cs : List Char) : listAt? (bytes cs) = (listAt? cs).map bytes := by
  cases cs with
  | nil => rfl
  | cons c r =>
    rcases Nat.lt_or_ge c.toNat 128 with hascii | hforeign
    · rw [bytes_cons, bytes_of_ascii hascii, List.singleton_append, listAt?, listAt?]
      split
      · exact listEnd?_bytes .letterI r
      · rfl
    · obtain ⟨b, more, hb, hbytes⟩ := Foreign.bytes_cons hforeign r
      rw [hbytes, listAt?_foreign hb, listAt?_foreign hforeign, Option.map_none]

/-- What is foreign is copied. -/
theorem replaced_foreign {foreign : List Char} (h : ∀ c ∈ foreign, Foreign c) (r : List Char) :
    replaced (foreign ++ r) = foreign ++ replaced r := by
  induction foreign with
  | nil => rfl
  | cons c rest ih =>
    obtain ⟨hc, hrest⟩ := List.forall_mem_cons.1 h
    rw [List.cons_append, replaced_of_char (listAt?_foreign hc _), ih hrest, List.cons_append]

/-- **Reading the bytes gives the bytes of the normal form.** -/
theorem replaced_bytes (cs : List Char) : replaced (bytes cs) = bytes (replaced cs) := by
  induction cs using reading with
  | nil => rfl
  | @list cs rest hlist ih =>
    have hfound := listAt?_bytes cs
    rw [hlist, Option.map_some] at hfound
    have hstandIn : bytes standIn = standIn := by decide
    rw [replaced_of_list hfound, replaced_of_list hlist, ih, bytes_append, hstandIn]
  | @char c r hchar ih =>
    have hfound := listAt?_bytes (c :: r)
    rw [hchar, Option.map_none, bytes_cons] at hfound
    rw [replaced_of_char hchar, bytes_cons, bytes_cons c (replaced r), ← ih]
    rcases Nat.lt_or_ge c.toNat 128 with hascii | hforeign
    · rw [bytes_of_ascii hascii] at hfound ⊢
      exact replaced_of_char hfound
    · exact replaced_foreign (foreign_bytes hforeign) _

/-- A slice that is being read goes on over foreign characters. -/
theorem slicesFrom_foreign {foreign : List Char} (h : ∀ c ∈ foreign, Foreign c)
    (fuel start place : Nat) (r : List Char) :
    slicesFrom fuel start place (foreign ++ r) =
      slicesFrom (fuel - foreign.length) start (place + foreign.length) r := by
  induction foreign generalizing fuel place with
  | nil => rfl
  | cons c rest ih =>
    obtain ⟨hc, hrest⟩ := List.forall_mem_cons.1 h
    cases fuel with
    | zero =>
      rw [Nat.zero_sub, slicesFrom, slicesFrom, List.length_append, Nat.add_assoc]
    | succ fuel =>
      rw [List.cons_append, slicesFrom_of_char (listAt?_foreign hc _), ih hrest, List.length_cons,
        Nat.add_sub_add_right, Nat.add_assoc, Nat.add_comm 1]

/-- **No slice begins or ends inside a character.**  The places that a slice may have are those
behind the characters that were read; `boundary` holds of these. -/
theorem boundary_of_mem_slicesFrom {boundary : Nat → Prop} {fuel start place : Nat}
    {cs : List Char} (hstart : boundary start)
    (hplace : ∀ read, read <+: cs → boundary (place + (bytes read).length)) :
    ∀ slice ∈ slicesFrom fuel start place (bytes cs), boundary slice.1 ∧ boundary slice.2 := by
  induction cs using reading generalizing fuel start place with
  | nil =>
    have hhere := hplace [] List.nil_prefix
    rw [show bytes [] = [] from rfl, slicesFrom_nil]
    exact List.forall_mem_singleton.2 ⟨hstart, hhere⟩
  | @list cs rest hlist ih =>
    obtain ⟨list, -, rfl⟩ := placeholderList_of_listAt? hlist
    have hhere : boundary place := hplace [] List.nil_prefix
    have hbehind : boundary (place + (bytes list).length) := hplace list (List.prefix_append _ _)
    have hfound := listAt?_bytes (list ++ rest)
    rw [hlist, Option.map_some] at hfound
    have hlength : (bytes (list ++ rest)).length - (bytes rest).length = (bytes list).length := by
      rw [bytes_append, List.length_append, Nat.add_sub_cancel]
    cases fuel with
    | zero =>
      have hend := hplace (list ++ rest) List.prefix_rfl
      exact List.forall_mem_singleton.2 ⟨hstart, hend⟩
    | succ fuel =>
      rw [slicesFrom_of_list hfound, hlength]
      refine List.forall_mem_cons.2 ⟨⟨hstart, hhere⟩, ih hbehind fun read hread => ?_⟩
      have hlater := hplace (list ++ read) ((List.prefix_append_right_inj list).2 hread)
      rw [bytes_append, List.length_append, ← Nat.add_assoc] at hlater
      exact hlater
  | @char c r hchar ih =>
    have hnext : ∀ read, read <+: r →
        boundary (place + (bytes [c]).length + (bytes read).length) := by
      intro read hread
      have hlater := hplace (c :: read) ((List.prefix_cons_inj c).2 hread)
      rw [bytes_cons, List.length_append, ← Nat.add_assoc] at hlater
      exact hlater
    rcases Nat.lt_or_ge c.toNat 128 with hascii | hforeign
    · have hfound := listAt?_bytes (c :: r)
      rw [hchar, Option.map_none, bytes_cons, bytes_of_ascii hascii, List.singleton_append]
        at hfound
      cases fuel with
      | zero =>
        have hend := hplace (c :: r) List.prefix_rfl
        exact List.forall_mem_singleton.2 ⟨hstart, hend⟩
      | succ fuel =>
        rw [bytes_of_ascii hascii] at hnext
        rw [bytes_cons, bytes_of_ascii hascii, List.singleton_append, slicesFrom_of_char hfound]
        exact ih hstart hnext
    · rw [bytes_cons, slicesFrom_foreign (foreign_bytes hforeign)]
      exact ih hstart hnext

/-- The places behind the characters of a text are where its strings may be cut. -/
theorem isValid_of_prefix {text : String} {read : List Char} (h : read <+: text.toList) :
    (⟨(bytes read).length⟩ : String.Pos.Raw).IsValid text := by
  obtain ⟨behind, hsplit⟩ := h
  have htext : text = String.ofList read ++ String.ofList behind := by
    rw [← String.ofList_append, hsplit, String.ofList_toList]
  have hsize : (String.ofList read).utf8ByteSize = (bytes read).length := by
    rw [← String.size_toByteArray, String.toByteArray_ofList, List.utf8Encode,
      List.size_toByteArray, bytes, List.length_map]
  have hend : (String.ofList read).rawEndPos = ⟨(bytes read).length⟩ := String.Pos.Raw.ext hsize
  rw [htext, ← hend]
  exact String.Pos.Raw.isValid_rawEndPos.append_right _

end Wiretap.Normal

namespace Wiretap

open Wiretap.Normal

/-- How the normal form of a text is copied from its bytes. -/
structure CopiedInSlices (sql : String) : Prop where
  /-- The slices, with what replaces the lists between them, are the bytes of the normal form. -/
  joined : standIn.intercalate ((slices (bytes sql.toList)).map (cut (bytes sql.toList))) =
    bytes (normalSql sql).toList
  /-- No slice begins or ends inside a character. -/
  atCharacters : ∀ slice ∈ slices (bytes sql.toList),
    (⟨slice.1⟩ : String.Pos.Raw).IsValid sql ∧ (⟨slice.2⟩ : String.Pos.Raw).IsValid sql

/-- Every text is copied in slices. -/
theorem copiedInSlices (sql : String) : CopiedInSlices sql := by
  constructor
  · rw [intercalate_slices, replaced_bytes, normalSql_eq, String.toList_ofList]
  · let boundary (place : Nat) : Prop := (⟨place⟩ : String.Pos.Raw).IsValid sql
    have hstart : boundary 0 := String.Pos.Raw.isValid_zero
    refine boundary_of_mem_slicesFrom hstart fun read hread => ?_
    rw [Nat.zero_add]
    exact isValid_of_prefix hread

/-- A statement is accounted by the normal form of its text. -/
theorem Tap.recordStatement_congr {sql sql' : String} (h : normalSql sql = normalSql sql')
    (t : Tap) (caller : Caller) (kind : Option StatementKind) (elapsed rows : UInt64) :
    t.recordStatement caller sql kind elapsed rows =
      t.recordStatement caller sql' kind elapsed rows := by
  rw [Tap.recordStatement, h, Tap.recordStatement]

/-- **What the normal form of a statement text is.**

* Around a placeholder list it is made of the normal forms of what stands before and behind, with
  ` in (?)` between them.
* A text is its own normal form exactly if it has no placeholder list.
* Texts that are the same but for the number, the spacing and the case in their lists have one
  normal form, and a tap accounts one as the other.
* It can be copied from the bytes of the text, in slices that begin and end between characters. -/
theorem normal_form_exact :
    (∀ before list behind : String, PlaceholderList list.toList →
      normalSql (before ++ list ++ behind) = normalSql before ++ " in (?)" ++ normalSql behind) ∧
    (∀ sql : String, normalSql sql = sql ↔
      ∀ list, PlaceholderList list → ¬ list <:+: sql.toList) ∧
    (∀ sql sql' : String, SameButLists sql.toList sql'.toList → normalSql sql = normalSql sql' ∧
      ∀ (t : Tap) (caller : Caller) (kind : Option StatementKind) (elapsed rows : UInt64),
        t.recordStatement caller sql kind elapsed rows =
          t.recordStatement caller sql' kind elapsed rows) ∧
    ∀ sql : String, CopiedInSlices sql := by
  refine ⟨fun before list behind hlist => ?_, fun sql => ?_, fun sql sql' hsame => ?_,
    copiedInSlices⟩
  · have hstandIn : String.ofList standIn = " in (?)" := String.ofList_toList
    rw [normalSql_eq, String.toList_append, String.toList_append, List.append_assoc,
      replaced_append_list hlist, String.ofList_append, String.ofList_append, hstandIn,
      ← String.append_assoc, ← normalSql_eq, ← normalSql_eq]
  · rw [← replaced_eq_self_iff, normalSql_eq, ← String.toList_inj, String.toList_ofList]
  · have hnormal : normalSql sql = normalSql sql' := by
      rw [normalSql_eq, normalSql_eq, hsame.replaced_eq]
    exact ⟨hnormal, Tap.recordStatement_congr hnormal⟩

/-- Lists that are begun and not ended stay as they are, before and behind one that is. -/
example : normalSql "a in (?, in ( in (?, ?) in (?,?" = "a in (?, in ( in (?) in (?,?" := by decide

/-- Two statements with letters beyond ASCII and a list of one.  Each has another list besides, with
blanks of three kinds or of one, and they are accounted as one. -/
theorem normal_form_exact_threeMarks :
    let before := "select 'é' where a"
    let behind := " and b in (?)"
    let spaced := before ++ " IN\t( ? ,\n?,? )" ++ behind
    let short := before ++ " in (?, ?)" ++ behind
    normalSql spaced = "select 'é' where a in (?) and b in (?)" ∧
      ∀ (t : Tap) (caller : Caller), t.recordStatement caller spaced none 5 1 =
        t.recordStatement caller short none 5 1 := by
  intro before behind spaced short
  have hspaced : PlaceholderList " IN\t( ? ,\n?,? )".toList := by decide
  have hshort : PlaceholderList " in (?, ?)".toList := by decide
  obtain ⟨haround, -, hsame, -⟩ := normal_form_exact
  have halike : SameButLists spaced.toList short.toList := by
    simp only [spaced, short, String.toList_append, List.append_assoc]
    exact .list _ hspaced hshort (.same _)
  refine ⟨(haround _ _ _ hspaced).trans (by decide), fun t caller => ?_⟩
  exact (hsame _ _ halike).2 t caller none 5 1

end Wiretap
