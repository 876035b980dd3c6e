/-!
# Tables: one value for each key, in the order the keys came

A table is a list of rows in which no key comes twice.  Keys are compared by `==`, which for some
keys is coarser than equality: two names of one thread are the same key, and the row keeps the
name it was made with.  A row stays where it was first put, so a table has an order of its own;
where an answer must not depend on it, the rows are sorted (`sorted`).

Main statements, for keys whose `==` is an equivalence:

* `get?_alter_self`, `get?_alter_other` — altering a key changes the value of that key alone;
* `mem_rows_iff` — a row is in the table exactly when looking its key up finds it.
-/

namespace Wiretap

/-- Rows with pairwise different keys. -/
structure Table (κ : Type u) (ν : Type v) [BEq κ] where
  rows : List (κ × ν)
  distinct : rows.Pairwise fun a b => (a.1 == b.1) = false

namespace Table

variable {κ : Type u} {ν : Type v} {μ : Type w} [BEq κ]

/-- The table without rows. -/
def empty : Table κ ν := ⟨[], .nil⟩

instance : Inhabited (Table κ ν) := ⟨empty⟩

/-- The number of rows. -/
def size (t : Table κ ν) : Nat := t.rows.length

/-- The value in the row of `k`. -/
def get? (t : Table κ ν) (k : κ) : Option ν :=
  (t.rows.find? (·.1 == k)).map (·.2)

/-- Whether `k` has a row. -/
def contains (t : Table κ ν) (k : κ) : Bool :=
  t.rows.any (·.1 == k)

/-- The keys, in the order of their rows. -/
def keys (t : Table κ ν) : List κ := t.rows.map (·.1)

/-- The rows after the value of `k` is changed by `f`, which is given nothing where `k` has no row
yet; the new row then comes last. -/
def alterRows (k : κ) (f : Option ν → ν) : List (κ × ν) → List (κ × ν)
  | [] => [(k, f none)]
  | row :: rest => if row.1 == k then (row.1, f (some row.2)) :: rest else row :: alterRows k f rest

/-- A key that is none of the rows is none of the altered ones, unless it is the new one. -/
theorem rel_alterRows {k a : κ} {f : Option ν → ν} (hk : (a == k) = false)
    {rows : List (κ × ν)} (h : ∀ b ∈ rows, (a == b.1) = false) :
    ∀ b ∈ alterRows k f rows, (a == b.1) = false := by
  induction rows with
  | nil => simp [alterRows, hk]
  | cons row rest ih =>
    intro b hb
    unfold alterRows at hb
    split at hb
    · rcases List.mem_cons.1 hb with rfl | hb
      · exact h row (by simp)
      · exact h b (by simp [hb])
    · rcases List.mem_cons.1 hb with rfl | hb
      · exact h b (by simp)
      · exact ih (fun c hc => h c (by simp [hc])) b hb

/-- Altered rows have distinct keys as the rows have. -/
theorem alterRows_distinct (k : κ) (f : Option ν → ν) {rows : List (κ × ν)}
    (h : rows.Pairwise fun a b => (a.1 == b.1) = false) :
    (alterRows k f rows).Pairwise fun a b => (a.1 == b.1) = false := by
  induction rows with
  | nil => simp [alterRows]
  | cons row rest ih =>
    obtain ⟨h1, h2⟩ := List.pairwise_cons.1 h
    unfold alterRows
    split
    · exact List.pairwise_cons.2 ⟨h1, h2⟩
    · rename_i hk
      exact List.pairwise_cons.2 ⟨rel_alterRows (by simpa using hk) h1, ih h2⟩

/-- Changes the value of `k` by `f`, or makes a row for it out of nothing. -/
def alter (t : Table κ ν) (k : κ) (f : Option ν → ν) : Table κ ν :=
  ⟨alterRows k f t.rows, alterRows_distinct k f t.distinct⟩

/-- Writes `v` for `k`; a key that has a row keeps its place. -/
def insert (t : Table κ ν) (k : κ) (v : ν) : Table κ ν :=
  t.alter k fun _ => v

/-- Writes every row in turn, so that of two rows with one key the later value stands. -/
def insertAll (t : Table κ ν) (rows : List (κ × ν)) : Table κ ν :=
  rows.foldl (fun t row => t.insert row.1 row.2) t

/-- The table of the given rows; of two rows with one key the later value stands. -/
def ofList (rows : List (κ × ν)) : Table κ ν :=
  empty.insertAll rows

/-- The rows whose key and value pass `keep`. -/
def filter (t : Table κ ν) (keep : κ → ν → Bool) : Table κ ν :=
  ⟨t.rows.filter fun row => keep row.1 row.2, t.distinct.filter _⟩

/-- The rows whose key is not `k`. -/
def erase (t : Table κ ν) (k : κ) : Table κ ν :=
  t.filter fun k' _ => !(k' == k)

/-- So do rows of which some are left out and the values changed. -/
theorem filterMap_distinct (f : κ → ν → Option μ) {rows : List (κ × ν)}
    (h : rows.Pairwise fun a b => (a.1 == b.1) = false) :
    (rows.filterMap fun row => (f row.1 row.2).map fun v => (row.1, v)).Pairwise
      fun a b => (a.1 == b.1) = false := by
  refine List.Pairwise.filterMap _ ?_ h
  intro a b hab a' ha' b' hb'
  simp only [Option.map_eq_some_iff] at ha' hb'
  obtain ⟨_, _, rfl⟩ := ha'
  obtain ⟨_, _, rfl⟩ := hb'
  exact hab

/-- The rows that `f` gives a value, with that value. -/
def filterMap (t : Table κ ν) (f : κ → ν → Option μ) : Table κ μ :=
  ⟨t.rows.filterMap fun row => (f row.1 row.2).map fun v => (row.1, v),
    filterMap_distinct f t.distinct⟩

/-- Every value replaced by its image. -/
def mapValues (t : Table κ ν) (f : κ → ν → μ) : Table κ μ :=
  t.filterMap fun k v => some (f k v)

/-- The rows in the order of their keys. -/
def sorted (t : Table κ ν) (order : κ → κ → Ordering) : List (κ × ν) :=
  t.rows.mergeSort fun a b => (order a.1 b.1).isLE

@[simp] theorem get?_empty (k : κ) : (empty : Table κ ν).get? k = none := rfl

/-- The altered value is found under its key. -/
theorem find?_alterRows_self [ReflBEq κ] (k : κ) (f : Option ν → ν) (rows : List (κ × ν)) :
    ((alterRows k f rows).find? (·.1 == k)).map (·.2) =
      some (f ((rows.find? (·.1 == k)).map (·.2))) := by
  induction rows with
  | nil => simp [alterRows]
  | cons row rest ih =>
    unfold alterRows
    split
    · rename_i h
      simp [h]
    · rename_i h
      simp [h, ih]

/-- Under another key is found what was there. -/
theorem find?_alterRows_other [EquivBEq κ] {k k' : κ} (hk : (k == k') = false)
    (f : Option ν → ν) (rows : List (κ × ν)) :
    ((alterRows k f rows).find? (·.1 == k')).map (·.2) =
      (rows.find? (·.1 == k')).map (·.2) := by
  induction rows with
  | nil => simp [alterRows, hk]
  | cons row rest ih =>
    unfold alterRows
    split
    · rename_i h
      have hr : (row.1 == k') = false := by
        rw [Bool.eq_false_iff]
        intro h'
        have : (k == k') = true := BEq.trans (BEq.symm h) h'
        simp [hk] at this
      simp [hr]
    · by_cases h' : (row.1 == k') = true
      · simp [h']
      · simp [h', ih]

/-- Altering a key gives it the altered value. -/
theorem get?_alter_self [ReflBEq κ] (t : Table κ ν) (k : κ) (f : Option ν → ν) :
    (t.alter k f).get? k = some (f (t.get? k)) :=
  find?_alterRows_self k f t.rows

/-- Altering a key leaves every other key alone. -/
theorem get?_alter_other [EquivBEq κ] (t : Table κ ν) {k k' : κ} (hk : (k == k') = false)
    (f : Option ν → ν) : (t.alter k f).get? k' = t.get? k' :=
  find?_alterRows_other hk f t.rows

/-- A key has a row exactly when looking it up finds a value. -/
theorem contains_eq_isSome (t : Table κ ν) (k : κ) : t.contains k = (t.get? k).isSome := by
  simp only [contains, get?, Option.isSome_map]
  induction t.rows with
  | nil => rfl
  | cons row rest ih => by_cases h : (row.1 == k) = true <;> simp [h, ih]

/-- A row is in the table exactly when looking its own key up finds that row. -/
theorem mem_rows_iff [EquivBEq κ] (t : Table κ ν) (row : κ × ν) :
    row ∈ t.rows ↔ t.rows.find? (·.1 == row.1) = some row := by
  constructor
  · intro h
    have hd := t.distinct
    generalize t.rows = rows at h hd
    induction rows with
    | nil => simp at h
    | cons r rest ih =>
      obtain ⟨h1, h2⟩ := List.pairwise_cons.1 hd
      rcases List.mem_cons.1 h with rfl | h
      · simp
      · simp [h1 row h, ih h h2]
  · exact List.mem_of_find?_eq_some

end Table

end Wiretap
