import Wiretap.Policy.Storage
import Wiretap.Proofs.Lookup
/-!
# What was written is read

Replacing a file ends with a node that is moved: the new text lies in a neighbour, and the
neighbour takes the place of the file.  So the path is walked on one disk and read on the next.
Moving a file changes what stands at two locations, neither of which is a directory, and a walk
looks at directories only; that is all there is to it (`walk_mono`).

* `read_of_replace` — a file that was replaced holds the new bytes.
-/

namespace Wiretap.Disk

variable {d d' : Disk}

/-- Whatever is above the start is a directory. -/
theorem isAbove_eq_false {place : Location} (h : d.get? place ≠ some .directory) :
    place.isAbove = false := by
  rw [Bool.eq_false_iff]
  intro habove
  exact h (if_pos habove)

/-- Removing the node of one location leaves all others alone. -/
theorem get?_remove_other {place other : Location} (h : place ≠ other) :
    (d.remove place).get? other = d.get? other := by
  unfold get? remove
  split
  · rfl
  · exact Table.get?_erase_other _ (beq_eq_false_iff_ne.2 h)

/-- A walk goes the same way on a disk that still has the directories. -/
theorem walkFrom_mono (hdirectories : ∀ l, d.get? l = some .directory →
      d'.get? l = some .directory) {steps : List String} {place target : Location}
    (h : d.walkFrom place steps = .ok target) : d'.walkFrom place steps = .ok target := by
  induction steps generalizing place with
  | nil => exact h
  | cons step rest ih =>
    have hplace : d.get? place = some .directory := by
      unfold walkFrom at h
      split at h
      · cases h
      · cases h
      · assumption
    rw [walkFrom, hplace] at h
    rw [walkFrom, hdirectories place hplace]
    by_cases hback : step = ".."
    · simp only [hback, if_true] at h ⊢
      exact ih h
    · by_cases hfits : fits step = true
      · simp only [hback, hfits, if_false, if_true] at h ⊢
        exact ih h
      · simp only [hback, hfits, if_false, Bool.false_eq_true] at h
        cases h

/-- A walk that arrives still arrives where no directory is missing. -/
theorem walk_mono (hdirectories : ∀ l, d.get? l = some .directory →
      d'.get? l = some .directory) {p : Path} {target : Location}
    (h : d.walk p = .ok target) : d'.walk p = .ok target := by
  unfold walk at h ⊢
  by_cases hrejects : rejects p = true
  · rw [if_pos hrejects] at h
    cases h
  · rw [if_neg hrejects] at h ⊢
    exact walkFrom_mono hdirectories h

/-- A file that was made stands at a location that is no directory. -/
theorem isAbove_of_create {p : Path} {place : Location} (h : d.create p = (.ok place, d')) :
    place.isAbove = false := by
  unfold create at h
  split at h
  · cases h
  · split at h
    · cases h
    · rename_i hfree
      cases h
      exact isAbove_eq_false (d := d) fun hdirectory => hfree (.inl hdirectory)

/-- What was written stands where it was written. -/
theorem get?_of_write {place : Location} {bytes : ByteArray} (hplace : place.isAbove = false)
    (h : d.write place bytes = (.ok (), d')) : d'.get? place = some (.file bytes) := by
  have hput : d' = d.put place (.file bytes) := by
    unfold write at h
    split at h
    · split at h
      · cases h
      · cases h
        rfl
    · cases h
      rfl
  rw [hput, get?_put_self d hplace]

/-- **A file that was moved is found at the end of the path.** -/
theorem read_of_rename {place : Location} {p : Path} {bytes : ByteArray}
    (hfile : d.get? place = some (.file bytes)) (h : d.rename place p = (.ok (), d')) :
    d'.read p = .ok bytes := by
  unfold rename at h
  rw [hfile] at h
  cases hwalk : d.walk p with
  | error e =>
    rw [hwalk] at h
    cases h
  | ok target =>
    simp only [hwalk] at h
    split at h
    · cases h
    · rename_i hfree
      rw [not_or, not_or] at hfree
      obtain ⟨htarget, hend, -⟩ := hfree
      obtain rfl : (d.remove place).put target (.file bytes) = d' := congrArg Prod.snd h
      have hdirectories : ∀ l, d.get? l = some .directory →
          ((d.remove place).put target (.file bytes)).get? l = some .directory := by
        intro l hl
        have hl_target : target ≠ l := by
          rintro rfl
          exact htarget hl
        have hl_place : place ≠ l := by
          rintro rfl
          rw [hfile] at hl
          cases hl
        rw [get?_put_other _ hl_target, get?_remove_other hl_place, hl]
      unfold read
      rw [walk_mono hdirectories hwalk]
      dsimp only
      rw [get?_put_self _ (isAbove_eq_false htarget)]
      exact if_neg hend

/-- The steps of replacing a file, all of which succeed if it does. -/
theorem steps_of_replace {p : Path} {bytes : ByteArray} (h : d.replace p bytes = (.ok (), d')) :
    ∃ made place created written, d.makeDirectories p.parent = (.ok (), made) ∧
      made.create (p.withExtension "tmp") = (.ok place, created) ∧
      created.write place bytes = (.ok (), written) ∧ written.rename place p = (.ok (), d') := by
  unfold replace at h
  split at h
  · cases h
  · rename_i made hmade
    split at h
    · cases h
    · rename_i place created hcreated
      split at h
      · cases h
      · rename_i written hwritten
        split at h
        · cases h
        · exact ⟨made, place, created, written, hmade, hcreated, hwritten, h⟩

/-- **A file that was replaced holds the new bytes**, whatever stood there before. -/
theorem read_of_replace {p : Path} {bytes : ByteArray} (h : d.replace p bytes = (.ok (), d')) :
    d'.read p = .ok bytes := by
  obtain ⟨made, place, created, written, -, hcreate, hwrite, hrename⟩ := steps_of_replace h
  have hplace : place.isAbove = false := isAbove_of_create hcreate
  have hfile : written.get? place = some (.file bytes) := get?_of_write hplace hwrite
  exact read_of_rename hfile hrename

end Wiretap.Disk
