import Wiretap.Statement.Normal
/-!
# Placeholder lists, and the texts that have them

The normal form of a statement text is found by a machine that reads the text once from the left.
Here the lists that it replaces are given by a **grammar** (`PlaceholderList`), which says nothing
about how a text is read, and the normal form is described in terms of the grammar alone.

* `listAt?_eq_some_iff` — the machine finds a list at the front of a text exactly if the grammar
  has one there, and it finds where that list ends;
* `listEnd?_append` — no list reaches into another.  From its blank on, a list has the letters of
  `in` and then blanks, question marks and commas, and the `i` of a later list is none of these.
  So a list that is begun before another list ends before it, or is none;
* `replaced_append_list` — the normal form of a text around a list;
* `replaced_eq_self_iff` — the texts that are their own normal form.
-/

namespace Wiretap.Normal

open Text

/-! ## The grammar -/

/-- Nothing but blanks of ASCII. -/
def Blanks (cs : List Char) : Prop := ∀ c ∈ cs, isAsciiBlank c = true

/-- So many question marks with a comma between each two, and any blanks around all signs. -/
inductive Marks : Nat → List Char → Prop where
  | one {before after : List Char} (hbefore : Blanks before) (hafter : Blanks after) :
    Marks 1 (before ++ '?' :: after)
  | more {k : Nat} {before after rest : List Char} (hbefore : Blanks before)
    (hafter : Blanks after) (hrest : Marks k rest) :
    Marks (k + 1) (before ++ '?' :: (after ++ ',' :: rest))

/-- **A placeholder list:** a blank, the word `in` in any letter case, and two or more question marks
in one pair of parentheses.  It ends with its closing parenthesis. -/
inductive PlaceholderList : List Char → Prop where
  | mk {blank i n : Char} {gap marks : List Char} {k : Nat} (hblank : isAsciiBlank blank = true)
    (hi : i = 'i' ∨ i = 'I') (hn : n = 'n' ∨ n = 'N') (hgap : Blanks gap)
    (hmarks : Marks k marks) (henough : 2 ≤ k) :
    PlaceholderList (blank :: i :: n :: (gap ++ '(' :: (marks ++ [')'])))

/-- Some marks with commas between them are at least so long. -/
theorem Marks.le_length {k : Nat} {marks : List Char} (h : Marks k marks) :
    1 ≤ k ∧ 2 * k ≤ marks.length + 1 := by
  induction h with
  | one =>
    simp only [List.length_append, List.length_cons]
    omega
  | more _ _ _ ih =>
    simp only [List.length_append, List.length_cons]
    omega

/-- A list is longer than what it is replaced by. -/
theorem PlaceholderList.length_standIn_lt {list : List Char} (h : PlaceholderList list) :
    standIn.length < list.length := by
  obtain @⟨_, _, _, _, _, k, _, _, _, _, hmarks, henough⟩ := h
  have hle := hmarks.le_length
  have hstandIn : standIn.length = 7 := by decide
  simp only [List.length_append, List.length_cons, List.length_nil]
  omega

/-! ## The machine and the grammar -/

/-- A character in lower case is a small letter if it is that letter or its capital. -/
theorem toLower_eq_iff {c small capital : Char} (hsmall : small.toLower = small)
    (hcapital : capital.toLower = small) (hval : capital.val + ('a'.val - 'A'.val) = small.val) :
    c.toLower = small ↔ c = small ∨ c = capital := by
  constructor
  · intro h
    unfold Char.toLower at h
    split at h
    · have hsum : c.val + ('a'.val - 'A'.val) = small.val := congrArg Char.val h
      exact .inr (Char.ext ((UInt32.add_left_inj _).1 (hsum.trans hval.symm)))
    · exact .inl h
  · rintro (rfl | rfl)
    · exact hsmall
    · exact hcapital

/-- Two characters have `i` for a lower case. -/
theorem toLower_eq_i_iff {c : Char} : c.toLower = 'i' ↔ c = 'i' ∨ c = 'I' :=
  toLower_eq_iff rfl rfl rfl

/-- Two characters have `n` for a lower case. -/
theorem toLower_eq_n_iff {c : Char} : c.toLower = 'n' ↔ c = 'n' ∨ c = 'N' :=
  toLower_eq_iff rfl rfl rfl

/-- **What one sign does:** it ends the reading, or reading goes on behind it, or the list ends with
it.  What stands behind it has no part in this. -/
theorem listEnd?_step (seek : Seek) (c : Char) :
    (∀ r, listEnd? seek (c :: r) = none) ∨
      (∃ next, ∀ r, listEnd? seek (c :: r) = listEnd? next r) ∨
      ∀ r, listEnd? seek (c :: r) = some r := by
  cases seek with
  | letterI =>
    by_cases hi : c.toLower = 'i'
    · exact .inr (.inl ⟨.letterN, fun r => if_pos hi⟩)
    · exact .inl fun r => if_neg hi
  | letterN =>
    by_cases hn : c.toLower = 'n'
    · exact .inr (.inl ⟨.opening, fun r => if_pos hn⟩)
    · exact .inl fun r => if_neg hn
  | opening =>
    by_cases hblank : isAsciiBlank c = true
    · exact .inr (.inl ⟨.opening, fun r => if_pos hblank⟩)
    · by_cases hopening : c = '('
      · exact .inr (.inl ⟨.mark false, fun r => (if_neg hblank).trans (if_pos hopening)⟩)
      · exact .inl fun r => (if_neg hblank).trans (if_neg hopening)
  | mark before =>
    by_cases hblank : isAsciiBlank c = true
    · exact .inr (.inl ⟨.mark before, fun r => if_pos hblank⟩)
    · by_cases hmark : c = '?'
      · exact .inr (.inl ⟨.separator before, fun r => (if_neg hblank).trans (if_pos hmark)⟩)
      · exact .inl fun r => (if_neg hblank).trans (if_neg hmark)
  | separator enough =>
    by_cases hblank : isAsciiBlank c = true
    · exact .inr (.inl ⟨.separator enough, fun r => if_pos hblank⟩)
    · by_cases hcomma : c = ','
      · exact .inr (.inl ⟨.mark true, fun r => (if_neg hblank).trans (if_pos hcomma)⟩)
      · by_cases hclosing : c = ')' ∧ enough = true
        · exact .inr (.inr fun r => (if_neg hblank).trans
            ((if_neg hcomma).trans (if_pos hclosing)))
        · exact .inl fun r => (if_neg hblank).trans ((if_neg hcomma).trans (if_neg hclosing))

/-- Whether blanks are passed over.  They are behind the word `in`. -/
def Seek.passesBlanks : Seek → Bool
  | .letterI | .letterN => false
  | _ => true

/-- Blanks are passed over where they may stand. -/
theorem listEnd?_blanks {seek : Seek} (hpasses : seek.passesBlanks = true) {blanks : List Char}
    (h : Blanks blanks) (cs : List Char) : listEnd? seek (blanks ++ cs) = listEnd? seek cs := by
  induction blanks with
  | nil => rfl
  | cons b rest ih =>
    obtain ⟨hb, hrest⟩ := List.forall_mem_cons.1 h
    rw [List.cons_append, ← ih hrest]
    cases seek with
    | letterI => cases hpasses
    | letterN => cases hpasses
    | _ => rw [listEnd?, if_pos hb]

/-- Behind the blanks there is a sign that decides how reading goes on. -/
theorem exists_sign {seek : Seek} (hpasses : seek.passesBlanks = true) {cs rest : List Char}
    (h : listEnd? seek cs = some rest) :
    ∃ blanks c r, Blanks blanks ∧ isAsciiBlank c = false ∧ cs = blanks ++ c :: r ∧
      listEnd? seek (c :: r) = some rest := by
  induction cs with
  | nil =>
    rw [listEnd?] at h
    cases h
  | cons c r ih =>
    cases hc : isAsciiBlank c with
    | false => exact ⟨[], c, r, List.forall_mem_nil _, hc, rfl, h⟩
    | true =>
      have hone : Blanks [c] := List.forall_mem_singleton.2 hc
      rw [← List.singleton_append, listEnd?_blanks hpasses hone] at h
      obtain ⟨blanks, d, r', hblanks, hd, rfl, hend⟩ := ih h
      exact ⟨c :: blanks, d, r', List.forall_mem_cons.2 ⟨hc, hblanks⟩, hd, rfl, hend⟩

/-- Behind the opening a mark is sought. -/
theorem listEnd?_opening (r : List Char) :
    listEnd? .opening ('(' :: r) = listEnd? (.mark false) r := rfl

/-- Behind a mark a comma or the end is sought. -/
theorem listEnd?_mark (before : Bool) (r : List Char) :
    listEnd? (.mark before) ('?' :: r) = listEnd? (.separator before) r := rfl

/-- Behind a comma a mark is sought, which makes enough of them. -/
theorem listEnd?_comma (enough : Bool) (r : List Char) :
    listEnd? (.separator enough) (',' :: r) = listEnd? (.mark true) r := rfl

theorem listEnd?_closing (r : List Char) : listEnd? (.separator true) (')' :: r) = some r := rfl

/-- Marks are read to their end, if there are two of them or one was read before. -/
theorem listEnd?_marks {k : Nat} {marks : List Char} (h : Marks k marks) {before : Bool}
    (henough : before = true ∨ 2 ≤ k) (rest : List Char) :
    listEnd? (.mark before) (marks ++ ')' :: rest) = some rest := by
  induction h generalizing before with
  | one hbefore hafter =>
    obtain rfl : before = true := henough.resolve_right (by decide)
    rw [List.append_assoc, listEnd?_blanks rfl hbefore, List.cons_append, listEnd?_mark,
      listEnd?_blanks rfl hafter, listEnd?_closing]
  | more hbefore hafter _ ih =>
    rw [List.append_assoc, listEnd?_blanks rfl hbefore, List.cons_append, listEnd?_mark,
      List.append_assoc, listEnd?_blanks rfl hafter, List.cons_append, listEnd?_comma,
      ih (.inl rfl)]

/-- What is read as marks are marks.  The rest of the marks is shorter, so this is by recursion on
the length of the text. -/
theorem marks_of_listEnd? {before : Bool} {cs rest : List Char}
    (h : listEnd? (.mark before) cs = some rest) :
    ∃ k marks, Marks k marks ∧ (before = true ∨ 2 ≤ k) ∧ cs = marks ++ ')' :: rest := by
  obtain ⟨blanks, c, r, hblanks, hc, rfl, hsign⟩ := exists_sign rfl h
  rw [listEnd?, hc, if_neg Bool.false_ne_true] at hsign
  split at hsign
  · rename_i hmark
    subst hmark
    obtain ⟨after, d, r', hafter, hd, rfl, hsep⟩ := exists_sign rfl hsign
    rw [listEnd?, hd, if_neg Bool.false_ne_true] at hsep
    split at hsep
    · rename_i hcomma
      subst hcomma
      obtain ⟨k, marks, hmarks, -, rfl⟩ := marks_of_listEnd? hsep
      have hle := hmarks.le_length
      refine ⟨k + 1, _, .more hblanks hafter hmarks, .inr (by omega), ?_⟩
      simp only [List.append_assoc, List.cons_append]
    · split at hsep
      · rename_i hclosing
        obtain ⟨rfl, hbefore⟩ := hclosing
        obtain rfl := Option.some.inj hsep
        refine ⟨1, _, .one hblanks hafter, .inl hbefore, ?_⟩
        simp only [List.append_assoc, List.cons_append]
      · cases hsep
  · cases hsign
termination_by cs.length
decreasing_by
  subst_vars
  simp only [List.length_append, List.length_cons]
  omega

/-- What stands behind the list at the front of a text. -/
def listAt? : List Char → Option (List Char)
  | [] => none
  | c :: r => if isAsciiBlank c then listEnd? .letterI r else none

/-- A placeholder list is found at its beginning, up to its end. -/
theorem listAt?_of_placeholderList {list : List Char} (h : PlaceholderList list)
    (rest : List Char) : listAt? (list ++ rest) = some rest := by
  obtain ⟨hblank, hi, hn, hgap, hmarks, henough⟩ := h
  simp only [List.cons_append, List.append_assoc, List.nil_append]
  rw [listAt?, if_pos hblank, listEnd?, if_pos (toLower_eq_i_iff.2 hi), listEnd?,
    if_pos (toLower_eq_n_iff.2 hn), listEnd?_blanks rfl hgap, listEnd?_opening,
    listEnd?_marks hmarks (.inr henough)]

/-- What is found is a placeholder list. -/
theorem placeholderList_of_listAt? {cs rest : List Char} (h : listAt? cs = some rest) :
    ∃ list, PlaceholderList list ∧ cs = list ++ rest := by
  rcases cs with _ | ⟨blank, r⟩
  · cases h
  obtain ⟨hblank, hword⟩ := Option.ite_none_right_eq_some.1 h
  rcases r with _ | ⟨i, _ | ⟨n, r⟩⟩
  · cases hword
  · obtain ⟨-, hword⟩ := Option.ite_none_right_eq_some.1 hword
    cases hword
  obtain ⟨hi, hword⟩ := Option.ite_none_right_eq_some.1 hword
  obtain ⟨hn, hopening⟩ := Option.ite_none_right_eq_some.1 hword
  obtain ⟨gap, c, r, hgap, hc, rfl, hsign⟩ := exists_sign rfl hopening
  rw [listEnd?, hc, if_neg Bool.false_ne_true] at hsign
  obtain ⟨rfl, hmark⟩ := Option.ite_none_right_eq_some.1 hsign
  obtain ⟨k, marks, hmarks, henough, rfl⟩ := marks_of_listEnd? hmark
  have hlist := PlaceholderList.mk hblank (toLower_eq_i_iff.1 hi) (toLower_eq_n_iff.1 hn) hgap
    hmarks (henough.resolve_left Bool.false_ne_true)
  exact ⟨_, hlist, by simp only [List.cons_append, List.append_assoc, List.nil_append]⟩

/-- **The machine finds what the grammar has,** and where it ends. -/
theorem listAt?_eq_some_iff {cs rest : List Char} :
    listAt? cs = some rest ↔ ∃ list, PlaceholderList list ∧ cs = list ++ rest := by
  constructor
  · exact placeholderList_of_listAt?
  · rintro ⟨list, hlist, rfl⟩
    exact listAt?_of_placeholderList hlist rest

/-- So it can be computed whether a text is a list. -/
instance (list : List Char) : Decidable (PlaceholderList list) :=
  decidable_of_iff (listAt? list = some []) <| by
    rw [listAt?_eq_some_iff]
    constructor
    · rintro ⟨list', hlist, rfl⟩
      rw [List.append_nil]
      exact hlist
    · intro hlist
      exact ⟨list, hlist, (List.append_nil list).symm⟩

/-- **No list reaches into another.**  The first two signs of the other list end any reading that has
come so far without an end. -/
theorem listEnd?_append {blank i : Char} (hblank : isAsciiBlank blank = true)
    (hi : i = 'i' ∨ i = 'I') (seek : Seek) (cs behind : List Char) :
    listEnd? seek (cs ++ blank :: i :: behind) =
      (listEnd? seek cs).map (· ++ blank :: i :: behind) := by
  induction cs generalizing seek with
  | nil =>
    have hletter : ¬ blank.toLower = 'i' ∧ ¬ blank.toLower = 'n' := by
      simp only [isAsciiBlank, Bool.or_eq_true, beq_iff_eq] at hblank
      rcases hblank with (((rfl | rfl) | rfl) | rfl) | rfl <;> decide
    have hsign : isAsciiBlank i = false ∧ i ≠ '(' ∧ i ≠ '?' ∧ i ≠ ',' ∧ i ≠ ')' := by
      rcases hi with rfl | rfl <;> decide
    obtain ⟨hno, hopening, hmark, hcomma, hclosing⟩ := hsign
    cases seek <;> simp [listEnd?, hblank, hletter, hno, hopening, hmark, hcomma, hclosing]
  | cons c r ih =>
    rw [List.cons_append]
    rcases listEnd?_step seek c with hends | ⟨next, hgoes⟩ | hfound
    · rw [hends, hends, Option.map_none]
    · rw [hgoes, hgoes, ih]
    · rw [hfound, hfound, Option.map_some]

/-- So a list that is begun before another list is known from what stands before that one. -/
theorem listAt?_append {list : List Char} (h : PlaceholderList list) {cs : List Char}
    (hcs : cs ≠ []) (behind : List Char) :
    listAt? (cs ++ (list ++ behind)) = (listAt? cs).map (· ++ (list ++ behind)) := by
  obtain ⟨hblank, hi, hn, hgap, hmarks, henough⟩ := h
  cases cs with
  | nil => exact absurd rfl hcs
  | cons c r =>
    simp only [List.cons_append, listAt?]
    split
    · exact listEnd?_append hblank hi .letterI r _
    · rfl

/-! ## The text with its lists replaced -/

/-- The text with every placeholder list replaced. -/
def replaced (cs : List Char) : List Char := replaceLists cs.length cs

theorem normalSql_eq (sql : String) : normalSql sql = String.ofList (replaced sql.toList) := rfl

/-- Behind a list less is left. -/
theorem length_lt_of_listAt? {cs rest : List Char} (h : listAt? cs = some rest) :
    rest.length < cs.length := by
  cases cs with
  | nil => cases h
  | cons c r =>
    obtain ⟨-, hend⟩ := Option.ite_none_right_eq_some.1 h
    exact Nat.lt_succ_of_lt (length_listEnd? hend)

/-- **Reading from the left:** a list at the front is taken as a whole, any other character for
itself.  Whatever holds of the rest in both cases holds of all texts. -/
theorem reading {motive : List Char → Prop} (nil : motive [])
    (list : ∀ {cs rest}, listAt? cs = some rest → motive rest → motive cs)
    (char : ∀ {c r}, listAt? (c :: r) = none → motive r → motive (c :: r)) (cs : List Char) :
    motive cs := by
  induction hlength : cs.length using Nat.strongRecOn generalizing cs with
  | ind n ih =>
    subst hlength
    cases cs with
    | nil => exact nil
    | cons c r =>
      cases hlist : listAt? (c :: r) with
      | none => exact char hlist (ih _ (Nat.lt_succ_self _) r rfl)
      | some rest => exact list hlist (ih _ (length_lt_of_listAt? hlist) rest rfl)

/-- A scan goes on behind a list, or behind one character. -/
theorem replaceLists_succ (fuel : Nat) (c : Char) (r : List Char) :
    replaceLists (fuel + 1) (c :: r) =
      match listAt? (c :: r) with
      | some rest => standIn ++ replaceLists fuel rest
      | none => c :: replaceLists fuel r := rfl

/-- Steps that are left over change nothing. -/
theorem replaceLists_congr {fuel fuel' : Nat} {cs : List Char} (h : cs.length ≤ fuel)
    (h' : cs.length ≤ fuel') : replaceLists fuel cs = replaceLists fuel' cs := by
  induction fuel generalizing fuel' cs with
  | zero =>
    obtain rfl := List.length_eq_zero_iff.1 (Nat.le_zero.1 h)
    cases fuel' <;> rfl
  | succ fuel ih =>
    cases cs with
    | nil => cases fuel' <;> rfl
    | cons c r =>
      rw [List.length_cons] at h h'
      obtain ⟨fuel', rfl⟩ := Nat.exists_eq_add_one_of_ne_zero (Nat.ne_of_gt (Nat.lt_of_lt_of_le
        (Nat.succ_pos _) h'))
      rw [replaceLists_succ, replaceLists_succ]
      cases hlist : listAt? (c :: r) with
      | none => simp only [ih (Nat.le_of_succ_le_succ h) (Nat.le_of_succ_le_succ h')]
      | some rest =>
        have hlt := length_lt_of_listAt? hlist
        rw [List.length_cons] at hlt
        simp only [ih (show rest.length ≤ fuel by omega) (show rest.length ≤ fuel' by omega)]

/-- A list is replaced by the stand-in. -/
theorem replaced_of_list {cs rest : List Char} (h : listAt? cs = some rest) :
    replaced cs = standIn ++ replaced rest := by
  cases cs with
  | nil => cases h
  | cons c r =>
    have hlt := length_lt_of_listAt? h
    rw [List.length_cons] at hlt
    rw [replaced, List.length_cons, replaceLists_succ, h, replaced]
    exact congrArg (standIn ++ ·)
      (replaceLists_congr (Nat.le_of_lt_succ hlt) (Nat.le_refl _))

/-- A character at which no list begins is kept. -/
theorem replaced_of_char {c : Char} {r : List Char} (h : listAt? (c :: r) = none) :
    replaced (c :: r) = c :: replaced r := by
  rw [replaced, List.length_cons, replaceLists_succ, h, replaced]

/-- **The normal form around a list** is made of the normal forms of what stands before it and
behind it. -/
theorem replaced_append_list {list : List Char} (h : PlaceholderList list)
    (before behind : List Char) :
    replaced (before ++ (list ++ behind)) = replaced before ++ (standIn ++ replaced behind) := by
  induction before using reading with
  | nil => exact replaced_of_list (listAt?_of_placeholderList h behind)
  | @list cs rest hlist ih =>
    have hcs : cs ≠ [] := by
      rintro rfl
      cases hlist
    have hlater := listAt?_append h hcs behind
    rw [hlist, Option.map_some] at hlater
    rw [replaced_of_list hlater, replaced_of_list hlist, ih, List.append_assoc]
  | @char c r hchar ih =>
    have hlater := listAt?_append h (List.cons_ne_nil c r) behind
    rw [hchar, Option.map_none, List.cons_append] at hlater
    rw [List.cons_append, replaced_of_char hlater, replaced_of_char hchar, ih, List.cons_append]

/-- A text gets no longer when its lists are replaced. -/
theorem length_replaced_le (cs : List Char) : (replaced cs).length ≤ cs.length := by
  induction cs using reading with
  | nil => exact Nat.le_refl 0
  | list hlist ih =>
    obtain ⟨list, h, rfl⟩ := placeholderList_of_listAt? hlist
    have hlonger := h.length_standIn_lt
    rw [replaced_of_list hlist, List.length_append, List.length_append]
    omega
  | char hchar ih =>
    rw [replaced_of_char hchar, List.length_cons, List.length_cons]
    omega

/-- **A text is its own normal form** exactly if it has no placeholder list.  If it has one, then its
normal form is shorter. -/
theorem replaced_eq_self_iff {cs : List Char} :
    replaced cs = cs ↔ ∀ list, PlaceholderList list → ¬ list <:+: cs := by
  constructor
  · rintro hsame list hlist ⟨before, behind, rfl⟩
    have hlonger := hlist.length_standIn_lt
    have hbefore := length_replaced_le before
    have hbehind := length_replaced_le behind
    have hlength := congrArg List.length hsame
    rw [List.append_assoc, replaced_append_list hlist] at hlength
    simp only [List.length_append] at hlength
    omega
  · intro hnone
    induction cs using reading with
    | nil => rfl
    | list hlist =>
      obtain ⟨list, h, rfl⟩ := placeholderList_of_listAt? hlist
      exact absurd (List.prefix_append list _).isInfix (hnone list h)
    | char hchar ih =>
      have hrest := ih fun list h hpart => hnone list h (hpart.trans (List.suffix_cons _ _).isInfix)
      rw [replaced_of_char hchar, hrest]

/-! ## Texts that differ in their lists -/

/-- Texts that are the same but for their placeholder lists: those of one stand where those of the
other stand, of whatever length, spacing and case. -/
inductive SameButLists : List Char → List Char → Prop where
  | same (cs : List Char) : SameButLists cs cs
  | list (before : List Char) {list list' behind behind' : List Char}
    (hlist : PlaceholderList list) (hlist' : PlaceholderList list')
    (hbehind : SameButLists behind behind') :
    SameButLists (before ++ (list ++ behind)) (before ++ (list' ++ behind'))

/-- Such texts have one normal form. -/
theorem SameButLists.replaced_eq {cs cs' : List Char} (h : SameButLists cs cs') :
    replaced cs = replaced cs' := by
  induction h with
  | same => rfl
  | list before hlist hlist' _ ih =>
    rw [replaced_append_list hlist, replaced_append_list hlist', ih]

end Wiretap.Normal
