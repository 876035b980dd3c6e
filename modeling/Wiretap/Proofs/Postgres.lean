import Mathlib.Algebra.Order.BigOperators.Group.List
import Mathlib.Data.List.Nodup
import Mathlib.Data.List.Perm.Subperm
import Wiretap.Postgres
import Wiretap.Proofs.Text.Decimal
/-!
# What a connection string is read as

A connection string is a line of pairs `key=value` with blanks between them.  A value ends at a
blank unless it stands in single quotes; a backslash takes the next character as it is, in quotes
or not; and an empty value has to be quoted.  `Postgres.of` writes every value as it comes.  That is
right for **plain** values, and for no others.

That the plain ones are read back is a run of the reader.  For the rest the characters are counted.
A pair that is read uses up at least the characters of its key and its value, one for the equals
sign and one for the blank behind it, where only the last pair of a line does without that blank;
and it uses up more where there was a quote, a backslash or a blank too many (`Place.step_tight`).
A line in which the values were written as they come has not a character more than its pairs need.
So a reading that finds them all can have wasted none, and has met plain values only
(`Place.weight_of_read`).

* `Place.read_line` — a line of plain values is read as what it was written from;
* `plain_of_subset` — where all pairs of a line are found, all its values are plain;
* `connection_string_read` — the two together for the parameters of a data source.
-/

namespace Wiretap.Postgres

/-- A key and its value. -/
abbrev Pair := String × String

/-- A value that stands for itself without quotes. -/
structure Plain (value : List Char) : Prop where
  filled : value ≠ []
  unblank : ∀ c ∈ value, Text.isBlank c = false
  unescaped : '\\' ∉ value
  unquoted : value.head? ≠ some '\x27'

instance (value : List Char) : Decidable (Plain value) :=
  have : Decidable (∀ c ∈ value, Text.isBlank c = false) := List.decidableBAll _ _
  decidable_of_iff
    (value ≠ [] ∧ (∀ c ∈ value, Text.isBlank c = false) ∧ '\\' ∉ value ∧ value.head? ≠ some '\x27')
    ⟨fun ⟨filled, unblank, unescaped, unquoted⟩ => ⟨filled, unblank, unescaped, unquoted⟩,
      fun h => ⟨h.filled, h.unblank, h.unescaped, h.unquoted⟩⟩

/-- Where the reader of a connection string stands. -/
inductive Place where
  /-- Between two pairs. -/
  | gap
  /-- Inside a key. -/
  | key (name : List Char)
  /-- Behind a key, where the equals sign has still to come. -/
  | equals (name : List Char)
  /-- Behind the equals sign. -/
  | start (name : List Char)
  /-- Inside a value without quotes, or behind a backslash there. -/
  | bare (name value : List Char)
  | bareEscape (name value : List Char)
  /-- Inside a value in quotes, or behind a backslash there. -/
  | quoted (name value : List Char)
  | quotedEscape (name value : List Char)

namespace Place

/-- One character: the pairs that it completes and where the reader stands behind it, or nothing
where it may not stand. -/
def step : Place → Char → Option (List Pair × Place)
  | gap, c =>
    if Text.isBlank c then some ([], gap)
    else if c = '=' then none
    else some ([], key [c])
  | key name, c =>
    if Text.isBlank c then some ([], equals name)
    else if c = '=' then some ([], start name)
    else some ([], key (name ++ [c]))
  | equals name, c =>
    if Text.isBlank c then some ([], equals name)
    else if c = '=' then some ([], start name)
    else none
  | start name, c =>
    if Text.isBlank c then some ([], start name)
    else if c = '\x27' then some ([], quoted name [])
    else if c = '\\' then some ([], bareEscape name [])
    else some ([], bare name [c])
  | bare name value, c =>
    if Text.isBlank c then some ([(String.ofList name, String.ofList value)], gap)
    else if c = '\\' then some ([], bareEscape name value)
    else some ([], bare name (value ++ [c]))
  | bareEscape name value, c => some ([], bare name (value ++ [c]))
  | quoted name value, c =>
    if c = '\x27' then some ([(String.ofList name, String.ofList value)], gap)
    else if c = '\\' then some ([], quotedEscape name value)
    else some ([], quoted name (value ++ [c]))
  | quotedEscape name value, c => some ([], quoted name (value ++ [c]))

/-- What the end of the line completes, or nothing where the line may not end. -/
def finish : Place → Option (List Pair)
  | gap => some []
  | bare name value => some [(String.ofList name, String.ofList value)]
  | bareEscape name value =>
    if value = [] then none else some [(String.ofList name, String.ofList value)]
  | key _ | equals _ | start _ | quoted _ _ | quotedEscape _ _ => none

/-- The pairs of what is left of a line. -/
def read : Place → List Char → Option (List Pair)
  | place, [] => place.finish
  | place, c :: rest => do
    let (pairs, place) ← place.step c
    let more ← place.read rest
    return pairs ++ more

end Place

/-- The pairs of a connection string, in the form of keys and values that libpq documents. -/
def read (line : String) : Option (List Pair) := Place.gap.read line.toList

/-- The characters of a pair that is written as it comes. -/
def spell (pair : Pair) : List Char := pair.1.toList ++ '=' :: pair.2.toList

/-- Pairs that are written as they come, with a space between them. -/
def line : List Pair → List Char
  | [] => []
  | [pair] => spell pair
  | pair :: rest => spell pair ++ ' ' :: line rest

/-- The first of several pairs stands before a blank. -/
theorem line_cons {rest : List Pair} (h : rest ≠ []) (pair : Pair) :
    line (pair :: rest) = spell pair ++ ' ' :: line rest := by
  rw [line]
  exact h

/-! ### Plain values are read back -/

namespace Place

variable {place next : Place} {c : Char} {rest : List Char} {pairs : List Pair}

/-- A line is read by its first character, and then from the place that this leads to. -/
theorem read_cons (place : Place) (c : Char) (rest : List Char) :
    place.read (c :: rest) =
      (place.step c).bind fun out => (out.2.read rest).map fun more => out.1 ++ more := by
  rw [read]
  cases place.step c with
  | none => rfl
  | some out => cases hmore : out.2.read rest <;> simp [hmore]

/-- A character that completes nothing. -/
theorem read_of_step (h : place.step c = some ([], next)) :
    place.read (c :: rest) = next.read rest := by
  rw [read_cons, h, Option.bind_some]
  exact Option.map_id'

/-- A name that is a key: some characters, none of them a blank or an equals sign. -/
structure IsKey (name : List Char) : Prop where
  filled : name ≠ []
  unblank : ∀ c ∈ name, Text.isBlank c = false
  unequal : '=' ∉ name

instance (name : List Char) : Decidable (IsKey name) :=
  have : Decidable (∀ c ∈ name, Text.isBlank c = false) := List.decidableBAll _ _
  decidable_of_iff (name ≠ [] ∧ (∀ c ∈ name, Text.isBlank c = false) ∧ '=' ∉ name)
    ⟨fun ⟨filled, unblank, unequal⟩ => ⟨filled, unblank, unequal⟩,
      fun h => ⟨h.filled, h.unblank, h.unequal⟩⟩

/-- Characters that a place takes up one after another. -/
theorem read_held {hold : List Char → Place} {more : List Char}
    (hstep : ∀ held, ∀ c ∈ more, (hold held).step c = some ([], hold (held ++ [c])))
    (held : List Char) : (hold held).read (more ++ rest) = (hold (held ++ more)).read rest := by
  induction more generalizing held with
  | nil => rw [List.nil_append, List.append_nil]
  | cons c more ih =>
    have hmore := ih fun held d hd => hstep held d (List.mem_cons_of_mem _ hd)
    rw [List.cons_append, read_of_step (hstep held c List.mem_cons_self), hmore,
      List.append_assoc, List.singleton_append]

/-- A character of a key is put to it. -/
theorem step_key (hblank : Text.isBlank c = false) (hequals : c ≠ '=') (name : List Char) :
    (key name).step c = some ([], key (name ++ [c])) := by
  simp [step, hblank, hequals]

/-- A character of a bare value is put to it. -/
theorem step_bare (hblank : Text.isBlank c = false) (hescape : c ≠ '\\')
    (name value : List Char) : (bare name value).step c = some ([], bare name (value ++ [c])) := by
  simp [step, hblank, hescape]

/-- The reader goes over a key to its equals sign. -/
theorem read_to_start {name : List Char} (h : IsKey name) :
    gap.read (name ++ '=' :: rest) = (start name).read rest := by
  cases name with
  | nil => exact absurd rfl h.filled
  | cons c more =>
    have hunequal : ∀ d ∈ c :: more, d ≠ '=' := fun d hd heq => h.unequal (heq ▸ hd)
    have hfirst : gap.step c = some ([], key [c]) := by
      simp [step, h.unblank c List.mem_cons_self, hunequal c List.mem_cons_self]
    have hmore : ∀ held, ∀ d ∈ more, (key held).step d = some ([], key (held ++ [d])) :=
      fun held d hd => step_key (h.unblank d (List.mem_cons_of_mem _ hd))
        (hunequal d (List.mem_cons_of_mem _ hd)) held
    have hequals : (key (c :: more)).step '=' = some ([], start (c :: more)) := by
      rw [step, if_neg (by decide), if_pos rfl]
    rw [List.cons_append, read_of_step hfirst, read_held hmore, List.singleton_append,
      read_of_step hequals]

/-- The reader goes over a plain value and has it as it stands. -/
theorem read_to_end {value : List Char} (h : Plain value) (name : List Char) :
    (start name).read (value ++ rest) = (bare name value).read rest := by
  cases value with
  | nil => exact absurd rfl h.filled
  | cons c more =>
    have hescape : ∀ d ∈ c :: more, d ≠ '\\' := fun d hd heq => h.unescaped (heq ▸ hd)
    have hquote : c ≠ '\x27' := fun heq => h.unquoted (by rw [heq, List.head?_cons])
    have hfirst : (start name).step c = some ([], bare name [c]) := by
      simp [step, h.unblank c List.mem_cons_self, hquote, hescape c List.mem_cons_self]
    have hmore : ∀ held, ∀ d ∈ more,
        (bare name held).step d = some ([], bare name (held ++ [d])) :=
      fun held d hd => step_bare (h.unblank d (List.mem_cons_of_mem _ hd))
        (hescape d (List.mem_cons_of_mem _ hd)) name held
    rw [List.cons_append, read_of_step hfirst, read_held hmore, List.singleton_append]

/-- A pair of a key and a plain value is read up to the end of the value. -/
theorem read_spell {pair : Pair} (hkey : IsKey pair.1.toList) (hplain : Plain pair.2.toList) :
    gap.read (spell pair ++ rest) = (bare pair.1.toList pair.2.toList).read rest := by
  rw [spell, List.append_assoc, List.cons_append, read_to_start hkey, read_to_end hplain]

/-- **A line of plain values is read as what it was written from.** -/
theorem read_line (hkeys : ∀ pair ∈ pairs, IsKey pair.1.toList)
    (hplain : ∀ pair ∈ pairs, Plain pair.2.toList) : gap.read (line pairs) = some pairs := by
  induction pairs with
  | nil => rfl
  | cons pair rest ih =>
    have hkey := hkeys pair List.mem_cons_self
    have hvalue := hplain pair List.mem_cons_self
    have hpair : (String.ofList pair.1.toList, String.ofList pair.2.toList) = pair := by
      rw [String.ofList_toList, String.ofList_toList]
    cases rest with
    | nil =>
      rw [line, ← List.append_nil (spell pair), read_spell hkey hvalue, read, finish, hpair]
    | cons second rest =>
      have hrest := ih (fun other hother => hkeys other (List.mem_cons_of_mem _ hother))
        (fun other hother => hplain other (List.mem_cons_of_mem _ hother))
      have hblank : (bare pair.1.toList pair.2.toList).step ' ' = some ([pair], gap) := by
        rw [step, if_pos (by decide), hpair]
      rw [line_cons (List.cons_ne_nil _ _), read_spell hkey hvalue, read_cons, hblank,
        Option.bind_some, hrest]
      rfl

end Place

/-! ### What is read uses characters up -/

/-- The characters that a pair needs: its own, the equals sign and a blank behind it. -/
def weight (pair : Pair) : Nat := pair.1.length + pair.2.length + 2

/-- The characters that pairs need. -/
def total (pairs : List Pair) : Nat := (pairs.map weight).sum

/-- The weights of pairs add up. -/
theorem total_append (pairs more : List Pair) :
    total (pairs ++ more) = total pairs + total more := by
  rw [total, List.map_append, List.sum_append, total, total]

theorem total_singleton (pair : Pair) : total [pair] = weight pair := List.sum_singleton

/-- The weight of a pair is its length and the blank behind it. -/
theorem length_spell (pair : Pair) : (spell pair).length + 1 = weight pair := by
  rw [spell, weight, List.length_append, List.length_cons, String.length_toList,
    String.length_toList]
  omega

/-- Pairs that are written as they come need all the characters of their line, and one more. -/
theorem total_eq {pairs : List Pair} (h : pairs ≠ []) : total pairs = (line pairs).length + 1 := by
  induction pairs with
  | nil => exact absurd rfl h
  | cons pair rest ih =>
    cases rest with
    | nil => rw [total_singleton, line, length_spell]
    | cons second rest =>
      have hrest := ih (List.cons_ne_nil _ _)
      have hspell := length_spell pair
      have htotal : total (pair :: second :: rest) = weight pair + total (second :: rest) := rfl
      rw [htotal, hrest, line_cons (List.cons_ne_nil _ _), List.length_append, List.length_cons]
      omega

namespace Place

/-- The characters that may still go into a pair. -/
def weight : Place → Nat
  | gap => 0
  | key name | equals name => name.length
  | start name => name.length + 1
  | bare name value | bareEscape name value | quoted name value | quotedEscape name value =>
    name.length + value.length + 1

/-- The value that is being read is plain as far as it goes. -/
def IsPlain : Place → Prop
  | gap | key _ | equals _ | start _ => True
  | bare _ value => Plain value
  | bareEscape _ _ | quoted _ _ | quotedEscape _ _ => False

/-- A plain value stays plain when it goes on without a blank or a backslash. -/
theorem plain_append {value : List Char} {c : Char} (h : Plain value)
    (hblank : Text.isBlank c = false) (hescape : c ≠ '\\') : Plain (value ++ [c]) where
  filled := List.concat_ne_nil c value
  unblank d hd := by
    rcases List.mem_append.1 hd with hd | hd
    · exact h.unblank d hd
    · rw [List.mem_singleton.1 hd]
      exact hblank
  unescaped hmem := by
    rcases List.mem_append.1 hmem with hmem | hmem
    · exact h.unescaped hmem
    · exact hescape (List.mem_singleton.1 hmem).symm
  unquoted := by
    rw [List.head?_append_of_ne_nil _ h.filled]
    exact h.unquoted

/-- One character is a plain value, if it does not quote, escape or part. -/
theorem plain_singleton {c : Char} (hblank : Text.isBlank c = false) (hquote : c ≠ '\x27')
    (hescape : c ≠ '\\') : Plain [c] where
  filled := List.cons_ne_nil c []
  unblank d hd := by
    rw [List.mem_singleton.1 hd]
    exact hblank
  unescaped hmem := hescape (List.mem_singleton.1 hmem).symm
  unquoted hhead := hquote (Option.some.inj hhead)

/-- A character is not wasted: what it completes and what is held behind it have grown by it.  Nor
does it spoil what is plain so far. -/
structure Tight (place : Place) (pairs : List Pair) (next : Place) : Prop where
  weight_eq : total pairs + next.weight = place.weight + 1
  plain : place.IsPlain → next.IsPlain ∧ ∀ pair ∈ pairs, Plain pair.2.toList

/-- A character that belongs to a key or to a value. -/
theorem Tight.of_held {place next : Place} (hweight : next.weight = place.weight + 1)
    (hplain : place.IsPlain → next.IsPlain) : Tight place [] next where
  weight_eq := by
    rw [total, List.map_nil, List.sum_nil, Nat.zero_add, hweight]
  plain h := ⟨hplain h, fun _ hpair => nomatch hpair⟩

/-- A character that is put behind a value. -/
theorem Tight.of_pushed {place next : Place} {name value : List Char} {c : Char}
    (hplace : place.weight = name.length + value.length + 1)
    (hnext : next.weight = name.length + (value ++ [c]).length + 1)
    (hplain : place.IsPlain → next.IsPlain) : Tight place [] next := by
  refine .of_held ?_ hplain
  rw [hnext, hplace, List.length_append, List.length_singleton]
  omega

/-- A character that ends a value. -/
theorem Tight.of_done {place : Place} {name value : List Char}
    (hweight : place.weight = name.length + value.length + 1)
    (hplain : place.IsPlain → Plain value) :
    Tight place [(String.ofList name, String.ofList value)] gap where
  weight_eq := by
    rw [total_singleton, Postgres.weight, hweight, weight, String.length_ofList,
      String.length_ofList]
  plain h := by
    refine ⟨trivial, fun pair hpair => ?_⟩
    rw [List.mem_singleton.1 hpair, String.toList_ofList]
    exact hplain h

/-- **One character.**  Either it is wasted, or it goes into what is read; and what is read without
waste is plain. -/
theorem step_tight {place next : Place} {c : Char} {pairs : List Pair}
    (h : place.step c = some (pairs, next)) :
    pairs = [] ∧ next.weight ≤ place.weight ∨ Tight place pairs next := by
  cases place with
  | gap =>
    rw [step] at h
    split at h
    · cases h
      exact .inl ⟨rfl, Nat.le_refl _⟩
    · split at h
      · cases h
      · cases h
        exact .inr (.of_held rfl fun _ => trivial)
  | key name =>
    rw [step] at h
    split at h
    · cases h
      exact .inl ⟨rfl, Nat.le_refl _⟩
    · split at h
      · cases h
        exact .inr (.of_held rfl fun _ => trivial)
      · cases h
        exact .inr (.of_held List.length_append fun _ => trivial)
  | equals name =>
    rw [step] at h
    split at h
    · cases h
      exact .inl ⟨rfl, Nat.le_refl _⟩
    · split at h
      · cases h
        exact .inr (.of_held rfl fun _ => trivial)
      · cases h
  | start name =>
    rw [step] at h
    split at h
    · cases h
      exact .inl ⟨rfl, Nat.le_refl _⟩
    · rename_i hblank
      split at h
      · -- the quote is wasted
        cases h
        exact .inl ⟨rfl, Nat.le_refl _⟩
      · rename_i hquote
        split at h
        · -- and so is the backslash
          cases h
          exact .inl ⟨rfl, Nat.le_refl _⟩
        · rename_i hescape
          cases h
          exact .inr (.of_held rfl fun _ =>
            plain_singleton (Bool.eq_false_iff.2 hblank) hquote hescape)
  | bare name value =>
    rw [step] at h
    split at h
    · cases h
      exact .inr (.of_done rfl id)
    · rename_i hblank
      split at h
      · cases h
        exact .inl ⟨rfl, Nat.le_refl _⟩
      · rename_i hescape
        cases h
        exact .inr (.of_pushed rfl rfl fun hplain =>
          plain_append hplain (Bool.eq_false_iff.2 hblank) hescape)
  | bareEscape name value =>
    cases h
    exact .inr (.of_pushed rfl rfl False.elim)
  | quoted name value =>
    rw [step] at h
    split at h
    · cases h
      exact .inr (.of_done rfl False.elim)
    · split at h
      · cases h
        exact .inl ⟨rfl, Nat.le_refl _⟩
      · cases h
        exact .inr (.of_pushed rfl rfl False.elim)
  | quotedEscape name value =>
    cases h
    exact .inr (.of_pushed rfl rfl False.elim)

/-- The end of the line, which stands for the blank behind the last value. -/
theorem finish_tight {place : Place} {pairs : List Pair} (h : place.finish = some pairs) :
    total pairs ≤ place.weight ∨ Tight place pairs gap := by
  cases place with
  | gap =>
    cases h
    exact .inl (Nat.le_refl _)
  | bare name value =>
    cases h
    exact .inr (.of_done rfl id)
  | bareEscape name value =>
    rw [finish] at h
    split at h
    · cases h
    · cases h
      exact .inr (.of_done rfl False.elim)
  | _ => cases h

/-- **A run of the reader.**  It finds no pairs that need more than there is; and where it finds
pairs that need all of it, their values are plain. -/
theorem weight_of_read {place : Place} {cs : List Char} {pairs : List Pair}
    (h : place.read cs = some pairs) :
    total pairs ≤ place.weight + cs.length ∨
      total pairs = place.weight + cs.length + 1 ∧
        (place.IsPlain → ∀ pair ∈ pairs, Plain pair.2.toList) := by
  induction cs generalizing place pairs with
  | nil =>
    refine (finish_tight h).imp id fun htight => ⟨htight.weight_eq, fun hplain => ?_⟩
    exact (htight.plain hplain).2
  | cons c rest ih =>
    rw [read_cons] at h
    obtain ⟨⟨done, next⟩, hstep, h⟩ := Option.bind_eq_some_iff.1 h
    obtain ⟨more, hmore, rfl⟩ := Option.map_eq_some_iff.1 h
    dsimp only at hmore ⊢
    rw [List.length_cons]
    rcases step_tight hstep with ⟨rfl, hwaste⟩ | htight
    · rw [List.nil_append]
      rcases ih hmore with hless | ⟨hall, -⟩
      · exact .inl (by omega)
      · exact .inl (by omega)
    · have hweight := htight.weight_eq
      rw [total_append]
      rcases ih hmore with hless | ⟨hall, hplain⟩
      · exact .inl (by omega)
      · refine .inr ⟨by omega, fun hplace pair hpair => ?_⟩
        obtain ⟨hnext, hdone⟩ := htight.plain hplace
        rcases List.mem_append.1 hpair with hpair | hpair
        · exact hdone pair hpair
        · exact hplain hnext pair hpair

end Place

/-- **Where all pairs of a line are found, its values are plain.**  Keys that come once are enough
for that, as no pair can then stand for two. -/
theorem plain_of_subset {pairs found : List Pair} (hkeys : (pairs.map Prod.fst).Nodup)
    (h : Place.gap.read (line pairs) = some found) (hsubset : pairs ⊆ found) :
    ∀ pair ∈ pairs, Plain pair.2.toList := by
  intro pair hpair
  have hline := total_eq (List.ne_nil_of_mem hpair)
  have hle : total pairs ≤ total found := by
    obtain ⟨some, hperm, hsublist⟩ := (List.Nodup.of_map _ hkeys).subperm hsubset
    calc total pairs = total some := ((hperm.map weight).sum_eq).symm
      _ ≤ total found := (hsublist.map weight).sum_le_sum fun _ _ => Nat.zero_le _
  rcases Place.weight_of_read h with hless | ⟨-, hplain⟩
  · have hgap : Place.gap.weight = 0 := rfl
    omega
  · exact hplain trivial pair (hsubset hpair)

/-! ### The parameters of a data source -/

/-- What a data source is made from. -/
structure Parameters where
  host : String
  port : UInt16
  user : String
  database : String
  password : Option String := none
  deriving DecidableEq, Repr

namespace Parameters

/-- The password, if there is one that is not empty. -/
def secret? (p : Parameters) : Option String := p.password.filter (!·.isEmpty)

/-- What the parameters say, each under its key. -/
def pairs (p : Parameters) : List Pair :=
  [("host", p.host), ("port", toString p.port), ("user", p.user)] ++
    p.secret?.toList.map (fun secret => ("password", secret)) ++ [("dbname", p.database)]

/-- The connection string of the data source. -/
def connectionString (p : Parameters) : String :=
  (Postgres.of p.host p.port p.user p.database p.password).connectionString

/-- Every parameter stands for itself without quotes. -/
structure Plain (p : Parameters) : Prop where
  host : Postgres.Plain p.host.toList
  user : Postgres.Plain p.user.toList
  database : Postgres.Plain p.database.toList
  secret : ∀ secret ∈ p.secret?, Postgres.Plain secret.toList

/-- The connection string is the line of the parameters, all of them written as they come. -/
theorem toList_connectionString (p : Parameters) : p.connectionString.toList = line p.pairs := by
  rw [connectionString, Postgres.of, ← secret?, pairs]
  cases p.secret? with
  | none => simp [line, spell, toString]
  | some secret => simp [line, spell, toString]

/-- The keys of the parameters are different. -/
theorem nodup_keys (p : Parameters) : (p.pairs.map Prod.fst).Nodup := by
  rw [pairs]
  cases p.secret? with
  | none => simp
  | some secret => simp

/-- The pairs are those of the parameters, and the password only where there is one. -/
theorem mem_pairs_iff {p : Parameters} {pair : Pair} :
    pair ∈ p.pairs ↔ pair = ("host", p.host) ∨ pair = ("port", toString p.port) ∨
      pair = ("user", p.user) ∨ (∃ secret ∈ p.secret?, ("password", secret) = pair) ∨
      pair = ("dbname", p.database) := by
  simp only [pairs, List.mem_append, List.mem_cons, List.mem_map, List.not_mem_nil, or_false,
    Option.mem_toList, Option.mem_def, or_assoc]

/-- The keys of the parameters are keys to a reader. -/
theorem isKey_of_mem_pairs {p : Parameters} {pair : Pair} (h : pair ∈ p.pairs) :
    Place.IsKey pair.1.toList := by
  have hkeys : ∀ key ∈ ["host", "port", "user", "password", "dbname"],
      Place.IsKey key.toList := by decide +kernel
  rcases mem_pairs_iff.1 h with rfl | rfl | rfl | ⟨secret, -, rfl⟩ | rfl <;>
    exact hkeys _ (by simp)

/-- A port is plain. -/
theorem plain_port (port : UInt16) : Postgres.Plain (toString port).toList := by
  rw [Text.toList_toString_uint16]
  refine ⟨Nat.toDigits_ne_nil, fun c hc => Text.isBlank_of_isDigit (Text.isDigit_of_mem_written hc),
    fun hescape => absurd (Text.isDigit_of_mem_written hescape) (by decide), fun hquote => ?_⟩
  exact absurd (Text.isDigit_of_mem_written (List.mem_of_head? hquote)) (by decide)

/-- Parameters are plain if all their values are. -/
theorem plain_iff {p : Parameters} :
    p.Plain ↔ ∀ pair ∈ p.pairs, Postgres.Plain pair.2.toList := by
  constructor
  · intro h pair hpair
    rcases mem_pairs_iff.1 hpair with rfl | rfl | rfl | ⟨secret, hsecret, rfl⟩ | rfl
    · exact h.host
    · exact plain_port p.port
    · exact h.user
    · exact h.secret secret hsecret
    · exact h.database
  · intro h
    exact {
      host := h ("host", p.host) (mem_pairs_iff.2 (.inl rfl))
      user := h ("user", p.user) (mem_pairs_iff.2 (.inr (.inr (.inl rfl))))
      database := h ("dbname", p.database) (mem_pairs_iff.2 (.inr (.inr (.inr (.inr rfl)))))
      secret := fun secret hsecret => h ("password", secret)
        (mem_pairs_iff.2 (.inr (.inr (.inr (.inl ⟨secret, hsecret, rfl⟩))))) }

/-- A connection string is read as the line of its pairs. -/
theorem read_connectionString (p : Parameters) :
    read p.connectionString = Place.gap.read (line p.pairs) := by
  rw [read, toList_connectionString]

/-- Plain parameters are read back. -/
theorem read_of_plain {p : Parameters} (h : p.Plain) : read p.connectionString = some p.pairs := by
  rw [read_connectionString]
  exact Place.read_line (fun _ => isKey_of_mem_pairs) (plain_iff.1 h)

/-- A port has one text. -/
theorem port_of_toString_eq {port port' : UInt16} (h : toString port = toString port') :
    port = port' := by
  have hport := Text.uint16?_toString port
  rw [h, Text.uint16?_toString] at hport
  exact (Option.some.inj hport).symm

/-- The pairs say all there is to say. -/
theorem eq_of_pairs_eq {p q : Parameters} (h : p.pairs = q.pairs) :
    (p.host, p.port, p.user, p.secret?, p.database) =
      (q.host, q.port, q.user, q.secret?, q.database) := by
  rw [pairs, pairs] at h
  cases hp : p.secret? with
  | none =>
    cases hq : q.secret? with
    | none =>
      simp only [hp, hq, Option.toList_none, List.map_nil, List.append_nil, List.cons_append,
        List.nil_append, List.cons.injEq, Prod.mk.injEq, true_and, and_true] at h
      obtain ⟨hhost, hport, huser, hdatabase⟩ := h
      rw [hhost, port_of_toString_eq hport, huser, hdatabase]
    | some other => simp [hp, hq] at h
  | some secret =>
    cases hq : q.secret? with
    | none => simp [hp, hq] at h
    | some other =>
      simp only [hp, hq, Option.toList_some, List.map_cons, List.map_nil, List.cons_append,
        List.nil_append, List.cons.injEq, Prod.mk.injEq, true_and, and_true] at h
      obtain ⟨hhost, hport, huser, hsecret, hdatabase⟩ := h
      rw [hhost, port_of_toString_eq hport, huser, hsecret, hdatabase]

end Parameters

/-- **What a connection string is read as.**  It is read as its parameters just where all of them
are plain, and otherwise some parameter is not found, whatever else is. -/
theorem connection_string_read (p : Parameters) :
    (p.Plain ↔ read p.connectionString = some p.pairs) ∧
      (p.Plain ↔ ∃ found, read p.connectionString = some found ∧ p.pairs ⊆ found) ∧
      ∀ other : Parameters, p.Plain → other.Plain →
        read p.connectionString = read other.connectionString →
          (p.host, p.port, p.user, p.secret?, p.database) =
            (other.host, other.port, other.user, other.secret?, other.database) := by
  have hfound : ∀ found, read p.connectionString = some found → p.pairs ⊆ found → p.Plain := by
    intro found hread hsubset
    rw [Parameters.read_connectionString] at hread
    exact Parameters.plain_iff.2 (plain_of_subset p.nodup_keys hread hsubset)
  refine ⟨⟨Parameters.read_of_plain, fun hread => hfound _ hread (List.Subset.refl _)⟩,
    ⟨fun hplain => ⟨p.pairs, Parameters.read_of_plain hplain, List.Subset.refl _⟩,
      fun ⟨found, hread, hsubset⟩ => hfound found hread hsubset⟩, ?_⟩
  intro other hplain hother hsame
  rw [Parameters.read_of_plain hplain, Parameters.read_of_plain hother] at hsame
  exact Parameters.eq_of_pairs_eq (Option.some.inj hsame)

/-- An empty password is none. -/
theorem connection_string_read_emptyPassword :
    let p : Parameters := { host := "db", port := 5432, user := "app", database := "orders" }
    let other : Parameters := { p with password := some "" }
    p.Plain ∧ other.Plain ∧
      read p.connectionString =
        some [("host", "db"), ("port", "5432"), ("user", "app"), ("dbname", "orders")] ∧
      (p.host, p.port, p.user, p.secret?, p.database) =
        (other.host, other.port, other.user, other.secret?, other.database) := by
  intro p other
  have hplain : p.Plain :=
    ⟨by decide +kernel, by decide +kernel, by decide +kernel, by decide +kernel⟩
  have hother : other.Plain := ⟨hplain.host, hplain.user, hplain.database, by decide +kernel⟩
  obtain ⟨hread, -, hsame⟩ := connection_string_read p
  exact ⟨hplain, hother, (hread.1 hplain).trans (by decide +kernel),
    hsame other hplain hother (by decide +kernel)⟩

/-- A password with a blank ends at the blank, and the line is read as nothing, where a quoted one
would have been read; and a user with a blank goes on to give a password. -/
theorem values_are_not_quoted :
    let spaced : Parameters :=
      { host := "db", port := 5432, user := "app", database := "orders", password := some "a b" }
    let sneaky : Parameters :=
      { host := "db", port := 5432, user := "app password=s3cret", database := "orders" }
    let other : Parameters :=
      { host := "db", port := 5432, user := "app", database := "orders", password := some "s3cret" }
    (spaced.connectionString = "host=db port=5432 user=app password=a b dbname=orders" ∧
        read spaced.connectionString = none ∧
        read "host=db port=5432 user=app password='a b' dbname=orders" = some spaced.pairs) ∧
      sneaky.connectionString = other.connectionString ∧
        read sneaky.connectionString = some other.pairs ∧ sneaky.pairs ≠ other.pairs := by
  decide +kernel

end Wiretap.Postgres
