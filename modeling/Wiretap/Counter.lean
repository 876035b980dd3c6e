/-!
# Sixty-four bit counters

Counters, byte totals and clock readings are words of sixty-four bits.  Three kinds of arithmetic
meet on them, and each is called by its rule.

* A live counter **wraps**: that is the word's own `+`.
* A total of several counters is **capped** at the greatest word (`cappedAdd`).
* A difference is either **refused** when it would be negative (`since?`) or **floored** at zero
  (`flooredSub`).

The lemmas move each of them to natural numbers.
-/

namespace Wiretap

/-- The greatest word of sixty-four bits. -/
def greatest : UInt64 := 18446744073709551615

theorem toNat_greatest : greatest.toNat = 18446744073709551615 := rfl

/-- The word nearest to `n`: `n` itself, or the greatest word where `n` is beyond it. -/
def capped (n : Nat) : UInt64 := UInt64.ofNat (min n greatest.toNat)

theorem toNat_capped (n : Nat) : (capped n).toNat = min n greatest.toNat := by
  simp only [capped, UInt64.toNat_ofNat', toNat_greatest]
  omega

/-- The sum, or the greatest word where the sum is beyond it. -/
def cappedAdd (a b : UInt64) : UInt64 := capped (a.toNat + b.toNat)

/-- A capped sum is the sum, or the greatest counter where that is less. -/
theorem toNat_cappedAdd (a b : UInt64) :
    (cappedAdd a b).toNat = min (a.toNat + b.toNat) greatest.toNat :=
  toNat_capped _

/-- The sum of words, which wraps. -/
def sumWords (words : List UInt64) : UInt64 := words.foldr (· + ·) 0

/-- What a counter gained since an earlier reading; nothing where it stands below that reading. -/
def since? (now before : UInt64) : Option UInt64 :=
  if before ≤ now then some (now - before) else none

/-- A gain is found exactly where the counter has not fallen, and it is what is missing. -/
theorem since?_eq_some {now before gain : UInt64} :
    since? now before = some gain ↔ now.toNat = before.toNat + gain.toNat := by
  unfold since?
  have hn := now.toNat_lt
  have hb := before.toNat_lt
  split
  · rename_i h
    have h' := UInt64.le_iff_toNat_le.1 h
    rw [Option.some.injEq, ← UInt64.toNat_inj, UInt64.toNat_sub_of_le _ _ h]
    omega
  · rename_i h
    rw [UInt64.le_iff_toNat_le] at h
    simp
    omega

/-- How far `later` lies beyond `earlier`; zero where it does not. -/
def flooredSub (later earlier : UInt64) : UInt64 :=
  if earlier ≤ later then later - earlier else 0

/-- A floored difference is the difference of the numbers, which stops at zero. -/
theorem toNat_flooredSub (later earlier : UInt64) :
    (flooredSub later earlier).toNat = later.toNat - earlier.toNat := by
  unfold flooredSub
  split
  · rename_i h
    exact UInt64.toNat_sub_of_le _ _ h
  · rename_i h
    rw [UInt64.le_iff_toNat_le] at h
    simp
    omega

/-- A length of time, in nanoseconds.  It may be longer than a word can say. -/
abbrev Duration := Nat

/-- So many milliseconds. -/
def Duration.ofMillis (ms : UInt64) : Duration := ms.toNat * 1000000

/-- The length of time as a word; one that is too long for a word is the greatest word. -/
def Duration.nanos (d : Duration) : UInt64 := capped d

end Wiretap
