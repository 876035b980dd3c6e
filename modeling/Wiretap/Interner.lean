import Wiretap.Table
/-!
# Interning: one shared copy of each text

Texts that are recorded again and again are kept once, under a hash of sixty-four bits.  Two texts
may have one hash; the first to come is kept, and the second is handed back as it is, not kept.
So interning never changes a text, whatever the hash function is (`intern_fst`).
-/

namespace Wiretap

/-- The texts kept so far, each under its hash. -/
structure Interner where
  hash : String → UInt64
  texts : Table UInt64 String := .empty

namespace Interner

/-- The text as it is shared, and the interner that keeps it. -/
def intern (t : Interner) (s : String) : String × Interner :=
  match t.texts.get? (t.hash s) with
  | some shared => (if shared = s then shared else s, t)
  | none => (s, { t with texts := t.texts.insert (t.hash s) s })

/-- The text kept under a hash. -/
def resolve (t : Interner) (h : UInt64) : Option String := t.texts.get? h

/-- The number of texts kept. -/
def size (t : Interner) : Nat := t.texts.size

/-- Keeps nothing any more. -/
def clear (t : Interner) : Interner := { t with texts := .empty }

/-- Interning hands back the very text. -/
theorem intern_fst (t : Interner) (s : String) : (t.intern s).1 = s := by
  unfold intern
  split
  · split
    · assumption
    · rfl
  · rfl

/-- The hash with one byte more mixed in: exclusive or, then a prime multiple. -/
def mixByte (h : UInt64) (b : UInt8) : UInt64 :=
  (h ^^^ b.toUInt64) * 1099511628211

/-- A hash of the bytes of a text. -/
def digest (s : String) : UInt64 :=
  s.toUTF8.data.foldl mixByte 14695981039346656037

/-- The empty interner with the default hash. -/
def fresh : Interner := { hash := digest }

instance : Inhabited Interner := ⟨fresh⟩

end Interner

end Wiretap
