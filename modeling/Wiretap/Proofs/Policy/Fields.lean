import Wiretap.Proofs.Policy.Codec
import Wiretap.Proofs.Text.Numerals
/-!
# What a record says in its fields

A record is written as an object or as an array: its fields are found by their names in any order,
or by their places.  `Json.said` gathers what is written for one field in either way, and `Field`
says when that comes to a value: it is written once and in a form of the value, or it is left out
where that has a meaning.

Reading an object fills a draft, one field after another.  The parts of the draft do not meet, so
each of them is followed by itself:

* `Takes` — a reader takes the forms of its values and nothing else;
* `Takes.follows` — a part of the draft is filled by the fields that have its name;
* `Follows.prod`, `Follows.each`, `Follows.comap` — parts side by side, a demand on every field, and
  a draft for its parts;
* `Follows.foldlM_eq_ok_iff` — from one field to all fields;
* `Takes.next_eq_ok_iff` — one more item of an array.

Numbers are read as they are spelled: `Json.Whole` says which literals are whole numbers.
-/

namespace Wiretap

/-! ## Whole numbers -/

namespace Json

/-- A literal **spells a whole number**: with digits, or with a minus sign and digits that are not
all zero. -/
inductive Whole (literal : String) : Int → Prop where
  | natural {n : Nat} (h : Text.Numeral literal.toList n) : Whole literal n
  | negative {digits : List Char} {n : Nat} (hsign : literal.toList = '-' :: digits)
      (h : Text.Numeral digits n) (hn : n ≠ 0) : Whole literal (-n)

/-- Digits are summed up as the number that they spell. -/
theorem foldl_digits (cs : List Char) (value : Nat) :
    cs.foldl (fun n c => 10 * n + (c.toNat - '0'.toNat)) value = Nat.ofDigitChars 10 cs value := by
  induction cs generalizing value with
  | nil => rfl
  | cons c rest ih => rw [List.foldl_cons, ih, Nat.ofDigitChars_cons]

/-- A text of digits is read as the number that it is a numeral of. -/
theorem digitsOf?_eq_some_iff {cs : List Char} {n : Nat} :
    wholeNumber?.digitsOf? cs = some n ↔ Text.Numeral cs n := by
  unfold wholeNumber?.digitsOf?
  by_cases hdigits : cs.isEmpty = true ∨ (!cs.all Char.isDigit) = true
  · rw [if_pos hdigits]
    refine iff_of_false nofun fun h => ?_
    rcases hdigits with hempty | hother
    · exact h.nonempty (List.isEmpty_iff.1 hempty)
    · rw [List.all_eq_true.2 h.digits] at hother
      cases hother
  · rw [if_neg hdigits, foldl_digits, Option.some.injEq]
    rw [not_or, Bool.not_eq_true, Bool.not_eq_true, Bool.not_eq_false', List.all_eq_true] at hdigits
    constructor
    · intro hvalue
      exact ⟨List.isEmpty_eq_false_iff.1 hdigits.1, hdigits.2, hvalue⟩
    · intro h
      exact h.value

/-- A literal spells one number at most. -/
theorem Whole.unique {literal : String} {n m : Int} (hn : Whole literal n) (hm : Whole literal m) :
    n = m := by
  have hminus : ∀ {digits : List Char} {k : Nat}, literal.toList = '-' :: digits →
      ¬ Text.Numeral literal.toList k := by
    intro digits k hsign h
    rw [hsign] at h
    exact absurd h.head (by decide)
  cases hn with
  | natural hn =>
    cases hm with
    | natural hm => rw [← hn.value, ← hm.value]
    | negative hsign _ _ => exact absurd hn (hminus hsign)
  | negative hsign hn _ =>
    cases hm with
    | natural hm => exact absurd hm (hminus hsign)
    | negative hsign' hm _ =>
      rw [hsign] at hsign'
      cases hsign'
      rw [← hn.value, ← hm.value]

/-- **Which literals are whole numbers**: those that spell one that sixty-four bits hold, with a
sign or without. -/
theorem wholeNumber?_eq_some_iff {literal : String} {n : Int} :
    wholeNumber? literal = some n ↔ Whole literal n ∧ -2 ^ 63 ≤ n ∧ n < 2 ^ 64 := by
  have hleast : Int64.minValue.toInt = -2 ^ 63 := rfl
  have hgreatest : (UInt64.size : Int) = 2 ^ 64 := rfl
  rw [wholeNumber?, Option.filter_eq_some_iff, decide_eq_true_eq, hleast, hgreatest]
  refine and_congr ?_ Iff.rfl
  split
  · rename_i digits hsign
    rw [Option.bind_eq_some_iff]
    constructor
    · rintro ⟨m, hm, h⟩
      by_cases hzero : m = 0
      · rw [if_pos hzero] at h
        cases h
      · rw [if_neg hzero] at h
        cases h
        exact .negative hsign (digitsOf?_eq_some_iff.1 hm) hzero
    · intro h
      cases h with
      | natural h =>
        rw [hsign] at h
        exact absurd h.head (by decide)
      | negative hsign' h hzero =>
        rw [hsign] at hsign'
        cases hsign'
        exact ⟨_, digitsOf?_eq_some_iff.2 h, if_neg hzero⟩
  · rename_i hother
    rw [Option.map_eq_some_iff]
    constructor
    · rintro ⟨m, hm, rfl⟩
      obtain ⟨k, hk, rfl⟩ := Text.cast_eq_some_iff.1 hm
      exact .natural (digitsOf?_eq_some_iff.1 hk)
    · intro h
      cases h with
      | natural h =>
        exact ⟨_, Text.cast_eq_some_iff.2 ⟨_, digitsOf?_eq_some_iff.2 h, rfl⟩, rfl⟩
      | negative hsign _ _ => exact absurd hsign (hother _)

/-! ## Records -/

/-- What stands under a name, in the order of the fields. -/
def under (name : String) (fields : List (Option String × Json)) : List Json :=
  fields.filterMap fun field => if field.1 = some name then some field.2 else none

/-- **What a record says** in one of its fields: what stands under its name in an object, and what
stands in its place in an array. -/
def said (place : Nat) (name : String) : Json → List Json
  | .object fields => under name fields
  | .array items => items[place]?.toList
  | _ => []

/-- A record of so many fields: an object in which all names are texts, or an array that is not too
long.  An object may have other fields, which say nothing. -/
def IsRecord (size : Nat) : Json → Prop
  | .object fields => ∀ field ∈ fields, field.1.isSome = true
  | .array items => items.length ≤ size
  | _ => False

/-- One more field comes behind the others of its name. -/
theorem under_concat (name : String) (fields : List (Option String × Json))
    (field : Option String × Json) :
    under name (fields ++ [field]) =
      under name fields ++ if field.1 = some name then [field.2] else [] := by
  rw [under, List.filterMap_append]
  by_cases hname : field.1 = some name
  · simp [under, hname]
  · simp [under, hname]

end Json

/-- **What a field comes to.**  It is written once, in a form of its value, or left out where
`absent` is its value. -/
inductive Field {α : Type} (form : Json → α → Prop) (absent : Option α) : List Json → α → Prop where
  | absent {a : α} (h : absent = some a) : Field form absent [] a
  | once {value : Json} {a : α} (h : form value a) : Field form absent [value] a

namespace Decode

variable {α δ : Type} {read : Json → Decoded α} {form : Json → α → Prop}

/-- A reader **takes** the forms of its values, and nothing else. -/
def Takes (read : Json → Decoded α) (form : Json → α → Prop) : Prop :=
  ∀ value a, read value = .ok a ↔ form value a

/-- The part of a draft that what was said so far has filled, or left empty. -/
inductive Slot (form : Json → α → Prop) : List Json → Option α → Prop where
  | empty : Slot form [] none
  | filled {value : Json} {a : α} (h : form value a) : Slot form [value] (some a)

/-- A field comes to what its part of the draft is filled with, or to what it is left out for. -/
theorem field_iff_slot {absent : Option α} {values : List Json} {a : α} :
    Field form absent values a ↔ ∃ slot, Slot form values slot ∧ slot.or absent = some a := by
  constructor
  · intro h
    cases h with
    | absent h => exact ⟨none, .empty, h⟩
    | once h => exact ⟨some a, .filled h, rfl⟩
  · rintro ⟨slot, hslot, ha⟩
    cases hslot with
    | empty => exact .absent ha
    | filled h =>
      cases ha
      exact .once h

/-! ## The fields of an object -/

/-- What one more field of an object makes of the part of the draft that is called `name`. -/
def take (read : Json → Decoded α) (name : String) (slot : Option α)
    (field : Option String × Json) : Decoded (Option α) :=
  if field.1 = some name then once name slot (read field.2) else .ok slot

/-- A field with another name leaves that part as it is. -/
theorem take_other {name other : String} (h : other = name → False) (slot : Option α)
    (value : Json) : take read name slot (some other, value) = .ok slot :=
  if_neg fun heq => h (Option.some.inj heq)

/-- A field is taken once, in one of its forms. -/
theorem Takes.once_eq_ok_iff (h : Takes read form) {name : String} {slot slot' : Option α}
    {value : Json} :
    once name slot (read value) = .ok slot' ↔ slot = none ∧ ∃ a, form value a ∧ slot' = some a := by
  cases slot with
  | some a => simp [once]
  | none =>
    rw [once, Except.map_eq_ok_iff]
    simp only [h value, true_and, eq_comm]

/-- One more field of an object fills an empty part of the draft, or leaves it as it is. -/
theorem Takes.slot_concat (h : Takes read form) (name : String)
    (fields : List (Option String × Json)) (field : Option String × Json) (slot' : Option α) :
    Slot form (Json.under name (fields ++ [field])) slot' ↔
      ∃ slot, Slot form (Json.under name fields) slot ∧ take read name slot field = .ok slot' := by
  rw [Json.under_concat]
  unfold take
  by_cases hname : field.1 = some name
  · simp only [if_pos hname, h.once_eq_ok_iff]
    constructor
    · intro hslot
      generalize hvalues : Json.under name fields ++ [field.2] = values at hslot
      cases hslot with
      | empty => simp at hvalues
      | @filled value a hform =>
        -- What is written last is all that is written.
        have hlast : Json.under name fields ++ [field.2] = [] ++ [value] := hvalues
        obtain ⟨hbefore, hvalue⟩ := List.append_inj' hlast rfl
        cases hvalue
        exact ⟨none, hbefore ▸ .empty, rfl, a, hform, rfl⟩
    · rintro ⟨slot, hslot, rfl, a, hform, rfl⟩
      generalize Json.under name fields = values at hslot
      cases hslot with
      | empty => exact .filled hform
  · simp [hname]

/-! ## All fields of an object -/

variable {φ : Type} {goes : δ → φ → δ → Prop} {start : δ} {filled : List φ → δ → Prop}

/-- What `filled` says of a draft **follows** the fields: it holds of the draft that nothing was
read into, and goes on from each draft to the next as one more field does. -/
structure Follows (goes : δ → φ → δ → Prop) (start : δ) (filled : List φ → δ → Prop) : Prop where
  nil (d : δ) : filled [] d ↔ d = start
  concat (fields : List φ) (field : φ) (d' : δ) :
    filled (fields ++ [field]) d' ↔ ∃ d, filled fields d ∧ goes d field d'

/-- **From one field to all fields.**  What follows the fields says what reading all of them
does. -/
theorem Follows.foldlM_eq_ok_iff (h : Follows goes start filled) {step : δ → φ → Decoded δ}
    (hstep : ∀ d field d', step d field = .ok d' ↔ goes d field d') (fields : List φ) (d : δ) :
    fields.foldlM step start = .ok d ↔ filled fields d := by
  induction fields using List.reverseRecOn generalizing d with
  | nil =>
    show Except.ok start = Except.ok d ↔ filled [] d
    rw [h.nil, Except.ok.injEq, eq_comm]
  | append_singleton fields field ih =>
    have hlast : ∀ d, [field].foldlM step d = step d field := by
      intro d
      rw [List.foldlM_cons]
      exact bind_pure _
    rw [h.concat, List.foldlM_append, Except.bind_eq_ok_iff]
    simp only [ih, hlast, hstep]

/-- Two parts of a draft are filled side by side. -/
theorem Follows.prod {δ' : Type} {goes' : δ' → φ → δ' → Prop} {start' : δ'}
    {filled' : List φ → δ' → Prop} (h : Follows goes start filled)
    (h' : Follows goes' start' filled') :
    Follows (fun d field d' => goes d.1 field d'.1 ∧ goes' d.2 field d'.2) (start, start')
      (fun fields d => filled fields d.1 ∧ filled' fields d.2) where
  nil d := by rw [h.nil, h'.nil, Prod.ext_iff]
  concat fields field d' := by
    rw [h.concat, h'.concat]
    constructor
    · rintro ⟨⟨d₁, hd₁, hgoes₁⟩, d₂, hd₂, hgoes₂⟩
      exact ⟨(d₁, d₂), ⟨hd₁, hd₂⟩, hgoes₁, hgoes₂⟩
    · rintro ⟨d, ⟨hd₁, hd₂⟩, hgoes₁, hgoes₂⟩
      exact ⟨⟨_, hd₁, hgoes₁⟩, _, hd₂, hgoes₂⟩

/-- What every field must be. -/
theorem Follows.each (h : Follows goes start filled) (admitted : φ → Prop) :
    Follows (fun d field d' => admitted field ∧ goes d field d') start
      (fun fields d => (∀ field ∈ fields, admitted field) ∧ filled fields d) where
  nil d := by simp only [h.nil, List.not_mem_nil, false_imp_iff, implies_true, true_and]
  concat fields field d' := by
    rw [h.concat, List.forall_mem_append, List.forall_mem_singleton]
    constructor
    · rintro ⟨⟨hfields, hfield⟩, d, hd, hgoes⟩
      exact ⟨d, ⟨hfields, hd⟩, hfield, hgoes⟩
    · rintro ⟨d, ⟨hfields, hd⟩, hfield, hgoes⟩
      exact ⟨⟨hfields, hfield⟩, d, hd, hgoes⟩

/-- A draft is its parts. -/
theorem Follows.comap {δ' : Type} (h : Follows goes start filled) (parts : δ' ≃ δ) :
    Follows (fun d field d' => goes (parts d) field (parts d')) (parts.symm start)
      (fun fields d => filled fields (parts d)) where
  nil d := by rw [h.nil, parts.eq_symm_apply]
  concat fields field d' := by rw [h.concat, parts.surjective.exists]

/-- One part of a draft follows the fields that have its name. -/
theorem Takes.follows (h : Takes read form) (name : String) :
    Follows (fun slot field slot' => take read name slot field = .ok slot') none
      (fun fields slot => Slot form (Json.under name fields) slot) where
  nil slot := by
    constructor
    · intro hslot
      cases hslot
      rfl
    · rintro rfl
      exact .empty
  concat := h.slot_concat name

/-! ## The items of an array -/

/-- The next item of an array, or none where the items have come to their end. -/
theorem Takes.next_eq_ok_iff (h : Takes read form) {absent : Decoded α} {place : Nat}
    {items rest : List Json} {a : α} :
    next read absent (items.drop place) = .ok (a, rest) ↔
      Field form absent.toOption items[place]?.toList a ∧ rest = items.drop (place + 1) := by
  have habsent : ∀ a, absent = .ok a ↔ absent.toOption = some a := by
    intro a
    cases absent with
    | error e => exact iff_of_false nofun nofun
    | ok a' => rw [Except.toOption, Except.ok.injEq, Option.some.injEq]
  by_cases hplace : place < items.length
  · rw [List.drop_eq_getElem_cons hplace, List.getElem?_eq_getElem hplace, next,
      Except.map_eq_ok_iff]
    constructor
    · rintro ⟨a', ha', hpair⟩
      cases hpair
      exact ⟨.once ((h _ _).1 ha'), rfl⟩
    · rintro ⟨hfield, rfl⟩
      cases hfield with
      | once hform => exact ⟨a, (h _ _).2 hform, rfl⟩
  · have hend : items.length ≤ place := Nat.le_of_not_lt hplace
    rw [List.drop_eq_nil_of_le hend, List.drop_eq_nil_of_le (Nat.le_succ_of_le hend),
      List.getElem?_eq_none hend, next, Except.map_eq_ok_iff]
    constructor
    · rintro ⟨a', ha', hpair⟩
      cases hpair
      exact ⟨.absent ((habsent _).1 ha'), rfl⟩
    · rintro ⟨hfield, rfl⟩
      cases hfield with
      | absent ha => exact ⟨a, (habsent a).2 ha, rfl⟩

/-- Behind the last place there is no item. -/
theorem noMore_eq_ok_iff {value value' : α} {size : Nat} {items : List Json} :
    noMore value (items.drop size) = .ok value' ↔
      (Json.array items).IsRecord size ∧ value = value' := by
  rw [Json.IsRecord, ← List.drop_eq_nil_iff]
  cases items.drop size with
  | nil => simp [noMore]
  | cons item items => simp [noMore]

end Decode

end Wiretap
