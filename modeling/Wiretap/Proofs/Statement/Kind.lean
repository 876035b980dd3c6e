import Wiretap.Proofs.Statement.Placeholders
import Wiretap.Statement
/-!
# The normal form of a text is of the kind of the text

A statement is accounted under the normal form of its text, and its kind is read off that form.
The two texts have the same kind (`classify_normalSql`), so a kind that is asked for may be held
against the text as it was written.

The first word of a text stays as it is unless a placeholder list stands before it.  Such a list
begins with a blank and the word `in`, which may have its parenthesis right behind it, and neither
is the name of a kind.
-/

namespace Wiretap

open Text Wiretap.Normal

namespace Normal

/-- A placeholder list begins with a blank and the word `in`, and then with a blank or its
parenthesis. -/
theorem PlaceholderList.front {list : List Char} (h : PlaceholderList list) :
    ∃ blank i n d r, list = blank :: i :: n :: d :: r ∧ isBlank blank = true ∧
      (i = 'i' ∨ i = 'I') ∧ (n = 'n' ∨ n = 'N') ∧ (isBlank d = true ∨ d = '(') := by
  obtain @⟨blank, i, n, gap, marks, _, hblank, hi, hn, hgap, -, -⟩ := h
  have hfront := isBlank_of_isAsciiBlank hblank
  cases gap with
  | nil => exact ⟨blank, i, n, '(', _, rfl, hfront, hi, hn, .inr rfl⟩
  | cons d gap =>
    have hd := isBlank_of_isAsciiBlank (hgap d List.mem_cons_self)
    exact ⟨blank, i, n, d, _, rfl, hfront, hi, hn, .inl hd⟩

theorem standIn_eq : standIn = [' ', 'i', 'n', ' ', '(', '?', ')'] := by decide

/-- What stands before the first blank is not touched. -/
theorem takeWhile_replaced (cs : List Char) :
    (replaced cs).takeWhile (!isBlank ·) = cs.takeWhile (!isBlank ·) := by
  induction cs using reading with
  | nil => rfl
  | @list cs rest hlist _ =>
    obtain ⟨list, h, rfl⟩ := placeholderList_of_listAt? hlist
    obtain ⟨blank, i, n, d, r, rfl, hblank, -⟩ := h.front
    have hspace : isBlank ' ' = true := by decide
    rw [replaced_of_list hlist]
    simp [standIn_eq, hblank, hspace]
  | char hchar ih => rw [replaced_of_char hchar, List.takeWhile_cons, List.takeWhile_cons, ih]

end Normal

namespace StatementKind

/-- A blank before the first word is passed over. -/
theorem firstWord_of_blank {c : Char} (h : isBlank c = true) (r : List Char) :
    firstWord (c :: r) = firstWord r := by
  simp [firstWord, trimFront, h]

/-- The first word goes up to the next blank, in lower case. -/
theorem firstWord_of_not_blank {c : Char} (h : isBlank c = false) (r : List Char) :
    firstWord (c :: r) = c.toLower :: (r.takeWhile (!isBlank ·)).map Char.toLower := by
  simp [firstWord, trimFront, h]

/-- The first words that name a kind. -/
def names : List String := ["select", "insert", "update", "delete", "merge"]

/-- A text whose first word names no kind is of another kind. -/
theorem classifyChars_of_unnamed {cs : List Char}
    (h : ∀ name ∈ names, String.ofList (firstWord cs) ≠ name) : classifyChars cs = other := by
  simp only [names, List.forall_mem_cons] at h
  obtain ⟨hselect, hinsert, hupdate, hdelete, hmerge, -⟩ := h
  unfold classifyChars
  rw [if_neg hselect, if_neg hinsert, if_neg hupdate, if_neg hdelete, if_neg hmerge]

/-- No name of a kind is `in`, or `in` with anything but an `s` behind it. -/
theorem classifyChars_of_in {cs w : List Char} (hword : firstWord cs = 'i' :: 'n' :: w)
    (hw : w.head? ≠ some 's') : classifyChars cs = other := by
  have hnames : ∀ name ∈ names,
      name.toList.take 2 ≠ ['i', 'n'] ∨ (name.toList.drop 2).head? = some 's' := by decide
  refine classifyChars_of_unnamed ?_
  rintro name hname rfl
  have hfront := hnames _ hname
  rw [String.toList_ofList, hword] at hfront
  rcases hfront with hfront | hfront
  · exact hfront rfl
  · exact hw hfront

/-- The name of a kind is made of letters. -/
theorem classifyChars_of_sign {cs : List Char} {c : Char} (hc : c.isAlpha = false)
    (hmem : c ∈ firstWord cs) : classifyChars cs = other := by
  have hnames : ∀ name ∈ names, name.toList.all Char.isAlpha = true := by decide
  refine classifyChars_of_unnamed ?_
  rintro name hname rfl
  have hall := hnames _ hname
  rw [String.toList_ofList] at hall
  have halpha := List.all_eq_true.1 hall c hmem
  rw [hc] at halpha
  cases halpha

/-- A text that a placeholder list stands at the front of names no kind. -/
theorem classifyChars_of_placeholderList {list : List Char} (h : PlaceholderList list)
    (rest : List Char) : classifyChars (list ++ rest) = other := by
  obtain ⟨blank, i, n, d, r, rfl, hblank, hi, hn, hd⟩ := h.front
  have hi' : isBlank i = false := by
    rcases hi with rfl | rfl <;> decide
  have hn' : isBlank n = false := by
    rcases hn with rfl | rfl <;> decide
  refine classifyChars_of_in
    (w := ((d :: (r ++ rest)).takeWhile (!isBlank ·)).map Char.toLower) ?_ ?_
  · simp only [List.cons_append]
    rw [firstWord_of_blank hblank, firstWord_of_not_blank hi', toLower_eq_i_iff.2 hi,
      List.takeWhile_cons, hn']
    simp [toLower_eq_n_iff.2 hn]
  · rcases hd with hd | rfl
    · simp [hd]
    · have hparen : isBlank '(' = false := by decide
      have hsame : Char.toLower '(' = '(' := by decide
      simp [hparen, hsame]

/-- Replacing the lists in a text does not change its kind. -/
theorem classifyChars_replaced (cs : List Char) : classifyChars (replaced cs) = classifyChars cs := by
  induction cs using reading with
  | nil => rfl
  | @list cs rest hlist _ =>
    have hin : firstWord (replaced cs) = ['i', 'n'] := by
      have hspace : isBlank ' ' = true := by decide
      have hi : isBlank 'i' = false := by decide
      have hn : isBlank 'n' = false := by decide
      rw [replaced_of_list hlist]
      simp [standIn_eq, firstWord, trimFront, hspace, hi, hn]
    obtain ⟨list, h, rfl⟩ := placeholderList_of_listAt? hlist
    rw [classifyChars_of_in hin (by simp), classifyChars_of_placeholderList h]
  | @char c r hchar ih =>
    rw [replaced_of_char hchar]
    by_cases hc : isBlank c = true
    · rw [classifyChars, classifyChars] at ih ⊢
      rw [firstWord_of_blank hc, firstWord_of_blank hc]
      exact ih
    · have hc' : isBlank c = false := Bool.eq_false_iff.2 hc
      have hword : firstWord (c :: replaced r) = firstWord (c :: r) := by
        rw [firstWord_of_not_blank hc', firstWord_of_not_blank hc', takeWhile_replaced]
      rw [classifyChars, hword, classifyChars]

/-- **The normal form of a text has the kind of the text.** -/
theorem classify_normalSql (sql : String) : classify (normalSql sql) = classify sql := by
  rw [classify, normalSql_eq, String.toList_ofList, classifyChars_replaced, classify]

end StatementKind

end Wiretap
