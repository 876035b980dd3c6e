/-!
# Cutting text in pieces

The cuts that addresses, statuses and patterns are read with: what follows a known beginning,
what stands between two brackets, and the two sides of the last colon.  Each cut can be undone:
`after?_eq_some_iff` and the lemmas behind it say what the text was made of.
-/

namespace Wiretap.Text

/-- What follows `front` in a text that begins with it. -/
def after? (front : List Char) (cs : List Char) : Option (List Char) :=
  if front.isPrefixOf cs then some (cs.drop front.length) else none

/-- What precedes `back` in a text that ends with it. -/
def before? (back : List Char) (cs : List Char) : Option (List Char) :=
  if back.isSuffixOf cs then some (cs.take (cs.length - back.length)) else none

/-- What stands between `left` at the front and `right` behind it at the back. -/
def between? (left right : Char) (cs : List Char) : Option (List Char) :=
  (after? [left] cs).bind (before? [right])

/-- The two sides of the last `mark` in a text that has one. -/
def splitLast? (mark : Char) : List Char → Option (List Char × List Char)
  | [] => none
  | c :: r =>
    match splitLast? mark r with
    | some (front, back) => some (c :: front, back)
    | none => if c = mark then some ([], r) else none

/-- The text without one pair of square brackets around it, if there is one. -/
def unbracket (cs : List Char) : List Char :=
  (between? '[' ']' cs).getD cs

/-- What stands after a front is what is left without it. -/
theorem after?_eq_some_iff {front cs rest : List Char} :
    after? front cs = some rest ↔ cs = front ++ rest := by
  unfold after?
  constructor
  · intro h
    split at h
    · rename_i hfront
      obtain ⟨rest', rfl⟩ := List.isPrefixOf_iff_prefix.1 hfront
      rw [List.drop_left, Option.some.injEq] at h
      rw [h]
    · cases h
  · intro h
    have hfront : front.isPrefixOf cs = true :=
      List.isPrefixOf_iff_prefix.2 ⟨rest, h.symm⟩
    rw [if_pos hfront, h, List.drop_left]

theorem before?_eq_some_iff {back cs front : List Char} :
    before? back cs = some front ↔ cs = front ++ back := by
  have hcut : ∀ front' : List Char,
      (front' ++ back).take ((front' ++ back).length - back.length) = front' := by
    intro front'
    rw [List.length_append, Nat.add_sub_cancel, List.take_left]
  unfold before?
  constructor
  · intro h
    split at h
    · rename_i hback
      obtain ⟨front', rfl⟩ := List.isSuffixOf_iff_suffix.1 hback
      rw [hcut, Option.some.injEq] at h
      rw [h]
    · cases h
  · intro h
    have hback : back.isSuffixOf cs = true :=
      List.isSuffixOf_iff_suffix.2 ⟨front, h.symm⟩
    rw [if_pos hback, h, hcut]

/-- What stands between two marks is what is left without them. -/
theorem between?_eq_some_iff {left right : Char} {cs inner : List Char} :
    between? left right cs = some inner ↔ cs = left :: (inner ++ [right]) := by
  rw [between?, Option.bind_eq_some_iff]
  constructor
  · rintro ⟨rest, hafter, hbefore⟩
    rw [after?_eq_some_iff.1 hafter, before?_eq_some_iff.1 hbefore]
    rfl
  · intro h
    exact ⟨inner ++ [right], after?_eq_some_iff.2 h, before?_eq_some_iff.2 rfl⟩

/-- A text is not split exactly where it has no mark. -/
theorem splitLast?_eq_none_iff {mark : Char} {cs : List Char} :
    splitLast? mark cs = none ↔ mark ∉ cs := by
  induction cs with
  | nil => simp [splitLast?]
  | cons c r ih =>
    rw [splitLast?, List.mem_cons, not_or, ← ih]
    cases hr : splitLast? mark r with
    | some parts => simp
    | none =>
      by_cases hc : c = mark
      · simp [hc]
      · simp [hc, Ne.symm hc]

/-- Splitting at the last mark loses nothing but the mark, and leaves none behind it. -/
theorem splitLast?_eq_some_iff {mark : Char} {cs front back : List Char} :
    splitLast? mark cs = some (front, back) ↔ cs = front ++ mark :: back ∧ mark ∉ back := by
  induction cs generalizing front back with
  | nil => simp [splitLast?]
  | cons c r ih =>
    rw [splitLast?]
    cases hr : splitLast? mark r with
    | some parts =>
      obtain ⟨front', back'⟩ := parts
      obtain ⟨hcut, hlast⟩ := ih.1 hr
      constructor
      · intro h
        cases h
        exact ⟨by rw [List.cons_append, ← hcut], hlast⟩
      · intro ⟨h, hback⟩
        cases front with
        | nil =>
          -- The mark that `r` has would stand behind the last one.
          cases h
          rw [splitLast?_eq_none_iff.2 hback] at hr
          cases hr
        | cons _ rest =>
          cases h
          rw [ih.2 ⟨rfl, hback⟩] at hr
          cases hr
          rfl
    | none =>
      have hnone := splitLast?_eq_none_iff.1 hr
      constructor
      · intro h
        dsimp only at h
        split at h
        · rename_i hc
          cases h
          exact ⟨by rw [hc, List.nil_append], hnone⟩
        · cases h
      · intro ⟨h, hback⟩
        cases front with
        | nil =>
          cases h
          simp
        | cons _ rest =>
          cases h
          exact absurd (by simp) hnone

end Wiretap.Text
