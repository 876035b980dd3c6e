import Mathlib.Data.List.Induction
import Wiretap.Proofs.Disk
/-!
# File trees and the ways through them

On a disk that is a **tree** (`Disk.IsTree`) whatever stands somewhere stands in a directory.  A
path leads through the path to its parent and one step further (`Path.steps_cases`), so what is at
its end is a matter of the directory at the end of the parent and of one name in it
(`Disk.walk_of_step`).

A path without two dots leads to one location, whatever the disk holds, and nothing but missing or
wrong directories can keep a walk from coming there.  So on a tree, a node at that location is a
node at the end of the path (`IsTree.walkFrom_of_node`, `IsTree.at?_along`).
-/

namespace Wiretap

/-! ## Paths and their parents -/

namespace Path

/-- An idle piece at the end is trimmed. -/
theorem trimmed_concat_of_idle {pieces : List String} {piece : String} (h : isIdle piece = true) :
    trimmed (pieces ++ [piece]) = trimmed pieces := by
  simp [trimmed, h]

/-- What is trimmed away leads nowhere. -/
theorem exists_idle (pieces : List String) :
    ∃ rest, pieces = trimmed pieces ++ rest ∧ ∀ piece ∈ rest, isIdle piece = true := by
  induction pieces using List.reverseRecOn with
  | nil => exact ⟨[], rfl, by simp⟩
  | append_singleton pieces piece ih =>
    by_cases hidle : isIdle piece = true
    · obtain ⟨rest, hpieces, hrest⟩ := ih
      refine ⟨rest ++ [piece], ?_, ?_⟩
      · rw [trimmed_concat_of_idle hidle, ← List.append_assoc, ← hpieces]
      · intro other hother
        rcases List.mem_append.1 hother with hother | hother
        · exact hrest other hother
        · rw [List.mem_singleton.1 hother]
          exact hidle
    · rw [trimmed_concat (Bool.eq_false_iff.2 hidle)]
      exact ⟨[], (List.append_nil _).symm, by simp⟩

/-- Trimming takes pieces from the end only. -/
theorem isPrefix_trimmed (pieces : List String) : trimmed pieces <+: pieces := by
  obtain ⟨rest, hpieces, -⟩ := exists_idle pieces
  exact ⟨rest, hpieces.symm⟩

/-- Trimming takes idle pieces only. -/
theorem filter_trimmed (pieces : List String) :
    (trimmed pieces).filter (!isIdle ·) = pieces.filter (!isIdle ·) := by
  obtain ⟨rest, hpieces, hidle⟩ := exists_idle pieces
  have hrest : rest.filter (!isIdle ·) = [] := by
    refine List.filter_eq_nil_iff.2 fun piece hpiece => ?_
    simp [hidle piece hpiece]
  have hfilter := congrArg (List.filter (!isIdle ·)) hpieces
  rw [List.filter_append, hrest, List.append_nil] at hfilter
  exact hfilter.symm

/-- The last piece that is left leads somewhere. -/
theorem isIdle_of_trimmed {pieces front : List String} {last : String}
    (h : trimmed pieces = front ++ [last]) : isIdle last = false := by
  induction pieces using List.reverseRecOn with
  | nil => simp [trimmed] at h
  | append_singleton pieces piece ih =>
    by_cases hidle : isIdle piece = true
    · rw [trimmed_concat_of_idle hidle] at h
      exact ih h
    · rw [trimmed_concat (Bool.eq_false_iff.2 hidle)] at h
      have hlast : piece = last := by
        have := congrArg List.getLast? h
        simpa using this
      rw [← hlast]
      exact Bool.eq_false_iff.2 hidle

/-- The steps of a path are the pieces that are left when it is trimmed and are not idle. -/
theorem steps_eq_filter (p : Path) : p.steps = (trimmed p.pieces).filter (!isIdle ·) :=
  (filter_trimmed p.pieces).symm

/-- **A path is its parent and one step more**, which is its name unless it leads back; or it has no
steps at all. -/
theorem steps_cases (p : Path) :
    (p.steps = [] ∧ p.parent.steps = [] ∧ p.name? = none) ∨
      ∃ last, p.steps = p.parent.steps ++ [last] ∧
        p.name? = (some last).filter (· != "..") := by
  have hparent : p.parent.steps = p.front.filter (!isIdle ·) := filter_trimmed p.front
  rw [hparent, steps_eq_filter]
  rcases List.eq_nil_or_concat (trimmed p.pieces) with hnone | ⟨front, last, hpieces⟩
  · left
    simp [front, name?, hnone]
  · right
    rw [List.concat_eq_append] at hpieces
    have hlast : isIdle last = false := isIdle_of_trimmed hpieces
    refine ⟨last, ?_, ?_⟩
    · simp [Path.front, hpieces, hlast]
    · simp [name?, hpieces]

/-- The last step of a path that has a name is this name. -/
theorem steps_of_name {p : Path} {name : String} (h : p.name? = some name) :
    p.steps = p.parent.steps ++ [name] ∧ name ≠ ".." := by
  rcases p.steps_cases with ⟨-, -, hnone⟩ | ⟨last, hsteps, hname⟩
  · rw [hnone] at h
    cases h
  · rw [hname, Option.filter_eq_some_iff] at h
    obtain ⟨hlast, hne⟩ := h
    cases hlast
    exact ⟨hsteps, bne_iff_ne.1 hne⟩

/-- A neighbour is one step from the same parent. -/
theorem steps_withExtension {p : Path} {name extension : String} (h : p.name? = some name)
    (hextension : extension ≠ "") :
    (p.withExtension extension).steps = p.parent.steps ++ [p.neighbour name extension] := by
  have hparent : p.parent.steps = p.front.filter (!isIdle ·) := filter_trimmed p.front
  rw [hparent, withExtension, h]
  simp [steps, isIdle_neighbour p name hextension]

/-- What stands behind the last dot of the name, unless nothing stands before that dot. -/
def extension? (p : Path) : Option String :=
  p.name?.bind fun name =>
    match Text.splitLast? '.' name.toList with
    | some (front, back) => if front.isEmpty then none else some (String.ofList back)
    | none => none

/-- **A neighbour has another name**, if it has another extension. -/
theorem neighbour_ne {p : Path} {name extension : String} (hname : p.name? = some name)
    (hextension : p.extension? ≠ some extension) (hdot : '.' ∉ extension.toList) :
    p.neighbour name extension ≠ name := by
  intro heq
  unfold neighbour at heq
  split at heq
  · exact (steps_of_name hname).2 heq.symm
  · have hparts : name.toList = (stem name).toList ++ '.' :: extension.toList := by
      have h := congrArg String.toList heq.symm
      rw [String.toList_append, String.toList_append, List.append_assoc] at h
      exact h
    have hsplit : Text.splitLast? '.' name.toList = some ((stem name).toList, extension.toList) :=
      Text.splitLast?_eq_some_iff.2 ⟨hparts, hdot⟩
    have hstem : (stem name).toList.isEmpty = false := by
      rw [Bool.eq_false_iff]
      intro hempty
      have hwhole : stem name = name := by
        rw [stem, hsplit]
        exact if_pos hempty
      rw [hwhole] at hparts
      have hlength := congrArg List.length hparts
      simp at hlength
    rw [extension?, hname, Option.bind_some, hsplit] at hextension
    simp [hstem] at hextension

/-- A path that begins another is no longer than it. -/
theorem size_le_of_prefix {front pieces : List String} (h : front <+: pieces) :
    (Path.mk front).size ≤ (Path.mk pieces).size := by
  obtain ⟨rest, rfl⟩ := h
  have hmono : ∀ (n : Nat) (l : List String),
      l.foldr (fun piece n => piece.utf8ByteSize + 1 + n) 0 ≤
        l.foldr (fun piece n => piece.utf8ByteSize + 1 + n) n := by
    intro n l
    induction l with
    | nil => exact Nat.zero_le n
    | cons piece rest ih => exact Nat.add_le_add_left ih _
  unfold size
  rw [List.foldr_append]
  exact Nat.sub_le_sub_right (hmono _ front) 1

/-- The parent of a path is no longer than the path. -/
theorem size_parent_le (p : Path) : p.parent.size ≤ p.size :=
  size_le_of_prefix <| (isPrefix_trimmed p.front).trans <|
    (List.dropLast_prefix _).trans (isPrefix_trimmed p.pieces)

end Path

/-! ## Locations -/

namespace Location

/-- A child is not above the start. -/
theorem isAbove_child {l : Location} {name : String} (h : name ≠ "..") :
    (l.child name).isAbove = false := by
  simpa [isAbove, child] using h

/-- One step back from a child is where it is a child. -/
theorem back_child {l : Location} {name : String} (h : name ≠ "..") : (l.child name).back = l := by
  rw [back, isAbove_child h]
  rfl

/-- One step back from above the start is above it still. -/
theorem isAbove_back {l : Location} (h : l.isAbove = true) : l.back.isAbove = true := by
  rw [back, if_pos h]
  rfl

/-- One step back leads at most one name deeper: above the start it is one more step upwards. -/
theorem depth_back_le (l : Location) : l.back.depth ≤ l.depth + 1 := by
  cases habove : l.isAbove with
  | true => simp [back, habove, child]
  | false =>
    simp only [back, habove, Bool.false_eq_true, if_false]
    omega

end Location

namespace Disk

variable {d d' : Disk}

/-- What is above the start is a directory. -/
theorem get?_of_isAbove {l : Location} (h : l.isAbove = true) : d.get? l = some .directory :=
  if_pos h

/-- Removing a node leaves nothing in its place. -/
theorem get?_remove_self {place : Location} (h : place.isAbove = false) :
    (d.remove place).get? place = none := by
  simp [get?, remove, h, Table.get?_erase_self]

/-! ## Walks -/

/-- What one step more leads to. -/
def stepFrom (here : Location) (step : String) : Location :=
  if step = ".." then here.back else here.child step

/-- A walk arrives if it stands in a directory, the step can be taken and the rest arrives. -/
theorem walkFrom_cons {place target : Location} {step : String} {rest : List String} :
    d.walkFrom place (step :: rest) = .ok target ↔
      d.get? place = some .directory ∧ (step = ".." ∨ fits step = true) ∧
        d.walkFrom (stepFrom place step) rest = .ok target := by
  rw [walkFrom, stepFrom]
  cases hplace : d.get? place with
  | none => simp
  | some node =>
    cases node with
    | file bytes => simp
    | directory =>
      by_cases hback : step = ".."
      · simp [hback]
      · by_cases hfits : fits step = true
        · simp [hback, hfits]
        · simp [hback, hfits]

/-- A walk ends with its last step, and this is taken in a directory. -/
theorem walkFrom_concat {place target : Location} {steps : List String} {step : String} :
    d.walkFrom place (steps ++ [step]) = .ok target ↔
      ∃ here, d.walkFrom place steps = .ok here ∧ d.get? here = some .directory ∧
        (step = ".." ∨ fits step = true) ∧ stepFrom here step = target := by
  induction steps generalizing place with
  | nil =>
    rw [List.nil_append, walkFrom_cons]
    simp [walkFrom]
  | cons first rest ih =>
    rw [List.cons_append, walkFrom_cons, ih]
    simp only [walkFrom_cons]
    constructor
    · rintro ⟨hplace, hfits, here, hhere, hrest⟩
      exact ⟨here, ⟨hplace, hfits, hhere⟩, hrest⟩
    · rintro ⟨here, ⟨hplace, hfits, hhere⟩, hrest⟩
      exact ⟨hplace, hfits, here, hhere, hrest⟩

/-- A path is walked from the start, unless it is rejected as it is. -/
theorem walk_eq_ok_iff {p : Path} {target : Location} :
    d.walk p = .ok target ↔ rejects p = false ∧ d.walkFrom .start p.steps = .ok target := by
  unfold walk
  cases rejects p with
  | true => simp
  | false => simp

/-- A path that is not refused has a parent that is not. -/
theorem rejects_parent {p : Path} (h : rejects p = false) : rejects p.parent = false := by
  have hsize := p.size_parent_le
  rw [← Bool.not_eq_true] at h ⊢
  refine mt (fun h => ?_) h
  simp only [rejects, Path.isLong, Bool.or_eq_true, decide_eq_true_eq, List.any_eq_true] at h ⊢
  rcases h with hlong | ⟨step, hstep, hzero⟩
  · left
    omega
  · right
    refine ⟨step, ?_, hzero⟩
    rcases p.steps_cases with ⟨-, hnone, -⟩ | ⟨last, hsteps, -⟩
    · rw [hnone] at hstep
      cases hstep
    · rw [hsteps]
      exact List.mem_append_left _ hstep

/-- **The last step of a path** is taken in a directory, to which the parent leads. -/
theorem walk_of_step {p : Path} {last : String} {target : Location}
    (hsteps : p.steps = p.parent.steps ++ [last]) (h : d.walk p = .ok target) :
    ∃ here, d.walk p.parent = .ok here ∧ d.get? here = some .directory ∧
      stepFrom here last = target := by
  rw [walk_eq_ok_iff, hsteps, walkFrom_concat] at h
  obtain ⟨hrejects, here, hhere, hdirectory, -, htarget⟩ := h
  exact ⟨here, walk_eq_ok_iff.2 ⟨rejects_parent hrejects, hhere⟩, hdirectory, htarget⟩

/-! ## What is at the end of a path -/

/-- What is at the end of a path.  Where the path must end at a directory, a file is not. -/
def at? (d : Disk) (p : Path) : Option Node :=
  match d.walk p with
  | .error _ => none
  | .ok place => (d.get? place).filter fun node => !p.toDirectory || node == .directory

/-- What is at a path is at a place to which the path leads. -/
theorem exists_of_at? {p : Path} {node : Node} (h : d.at? p = some node) :
    ∃ place, d.walk p = .ok place ∧ d.get? place = some node := by
  unfold at? at h
  cases hwalk : d.walk p with
  | error e =>
    rw [hwalk] at h
    cases h
  | ok place =>
    rw [hwalk] at h
    exact ⟨place, rfl, (Option.filter_eq_some_iff.1 h).1⟩

/-- What is at the end of a path depends on where the path leads and what stands there. -/
theorem at?_congr {p : Path} {place : Location} (h : d.walk p = .ok place)
    (h' : d'.walk p = .ok place) (hnode : d'.get? place = d.get? place) : d'.at? p = d.at? p := by
  rw [at?, at?, h, h']
  dsimp only
  rw [hnode]

/-- **What is somewhere is in a directory.**  Where something is at the end of a path, there is a
directory at the end of its parent. -/
theorem at?_parent {p : Path} {node : Node} (h : d.at? p = some node) :
    d.at? p.parent = some .directory := by
  obtain ⟨place, hwalk, -⟩ := exists_of_at? h
  have hdirectory : ∃ here, d.walk p.parent = .ok here ∧ d.get? here = some .directory := by
    rcases p.steps_cases with ⟨hnone, hparent, -⟩ | ⟨last, hsteps, -⟩
    · refine ⟨.start, walk_eq_ok_iff.2 ⟨rejects_parent (walk_eq_ok_iff.1 hwalk).1, ?_⟩, rfl⟩
      rw [hparent]
      rfl
    · obtain ⟨here, hhere, hdirectory, -⟩ := walk_of_step hsteps hwalk
      exact ⟨here, hhere, hdirectory⟩
  obtain ⟨here, hhere, hdirectory⟩ := hdirectory
  rw [at?, hhere]
  simp [hdirectory]

/-! ## Trees -/

/-- **A tree:** whatever stands somewhere stands in a directory. -/
def IsTree (d : Disk) : Prop :=
  ∀ l node, d.get? l = some node → d.get? l.back = some .directory

/-- The empty disk is a tree. -/
theorem isTree_empty : IsTree {} := by
  intro l node h
  by_cases habove : l.isAbove = true
  · exact get?_of_isAbove (Location.isAbove_back habove)
  · rw [get?, if_neg habove] at h
    cases h

namespace IsTree

/-- A tree stays one when a node is put into a directory, unless the node takes the place of a
directory. -/
theorem put (htree : d.IsTree) {place : Location} {node : Node}
    (hplace : d.get? place ≠ some .directory) (hback : d.get? place.back = some .directory) :
    (d.put place node).IsTree := by
  have hunder := isAbove_eq_false hplace
  have hkept : ∀ l, d.get? l = some .directory → (d.put place node).get? l = some .directory := by
    intro l hl
    have hne : place ≠ l := by
      rintro rfl
      exact hplace hl
    rw [get?_put_other d hne, hl]
  intro l other hl
  by_cases hsame : place = l
  · rw [← hsame]
    exact hkept _ hback
  · rw [get?_put_other d hsame] at hl
    exact hkept _ (htree l other hl)

/-- A tree stays one when a file is removed. -/
theorem remove (htree : d.IsTree) {place : Location} (hplace : d.get? place ≠ some .directory) :
    (d.remove place).IsTree := by
  have hunder := isAbove_eq_false hplace
  intro l node hl
  have hne : place ≠ l := by
    rintro rfl
    rw [get?_remove_self hunder] at hl
    cases hl
  rw [get?_remove_other hne] at hl
  have hback := htree l node hl
  have hne_back : place ≠ l.back := by
    rintro rfl
    exact hplace hback
  rw [get?_remove_other hne_back, hback]

end IsTree

end Disk

/-! ## Ways without two dots -/

namespace Location

/-- The location that names lead to. -/
def along (place : Location) (names : List String) : Location := names.foldl child place

/-- To go along names is to go to a child for each of them. -/
theorem along_concat (place : Location) (names : List String) (name : String) :
    place.along (names ++ [name]) = (place.along names).child name := by
  rw [along, List.foldl_concat, along]

/-- Each name leads one deeper. -/
theorem depth_along (place : Location) (names : List String) :
    (place.along names).depth = place.depth + names.length := by
  induction names generalizing place with
  | nil => rfl
  | cons name rest ih =>
    have hrest := ih (place.child name)
    have hdepth : (place.child name).depth = place.depth + 1 := rfl
    rw [along, List.foldl_cons, ← along, List.length_cons]
    omega

end Location

namespace Disk

variable {d : Disk} {place target : Location} {steps : List String}

/-- Without two dots a walk leads where the names lead. -/
theorem along_of_walkFrom (hback : ".." ∉ steps) (h : d.walkFrom place steps = .ok target) :
    target = place.along steps ∧ ∀ step ∈ steps, fits step = true := by
  induction steps generalizing place with
  | nil =>
    cases h
    exact ⟨rfl, by simp⟩
  | cons step rest ih =>
    obtain ⟨-, hfits, hrest⟩ := walkFrom_cons.1 h
    have hstep : step ≠ ".." := fun heq => hback (heq ▸ List.mem_cons_self)
    rw [stepFrom, if_neg hstep] at hrest
    obtain ⟨htarget, hall⟩ := ih (fun hmem => hback (List.mem_cons_of_mem _ hmem)) hrest
    refine ⟨htarget, ?_⟩
    intro other hother
    rcases List.mem_cons.1 hother with rfl | hother
    · exact hfits.resolve_left hstep
    · exact hall other hother

/-- **A node of a tree is reached** by the names that lead to it.  The induction is on the names,
from the last one back: each stands in a directory. -/
theorem IsTree.walkFrom_of_node (htree : d.IsTree) (hback : ".." ∉ steps)
    (hfits : ∀ step ∈ steps, fits step = true) {node : Node}
    (h : d.get? (place.along steps) = some node) :
    d.walkFrom place steps = .ok (place.along steps) := by
  induction steps using List.reverseRecOn generalizing node with
  | nil => rfl
  | append_singleton steps step ih =>
    rw [List.mem_append, not_or, List.mem_singleton] at hback
    obtain ⟨hback, hstep⟩ := hback
    rw [Location.along_concat] at h ⊢
    have hdirectory := htree _ _ h
    rw [Location.back_child (Ne.symm hstep)] at hdirectory
    have hwalk := ih hback (fun other hother => hfits other (List.mem_append_left _ hother))
      hdirectory
    refine walkFrom_concat.2 ⟨_, hwalk, hdirectory, .inr (hfits step (by simp)), ?_⟩
    exact if_neg (Ne.symm hstep)

/-- A path that is not refused for what it is made of. -/
def Admits (p : Path) : Prop := rejects p = false ∧ ∀ step ∈ p.steps, fits step = true

variable {p : Path}

/-- **What is at the end of a path without two dots** is the node at one location, whatever the tree
is. -/
theorem IsTree.at?_along (htree : d.IsTree) (hback : ".." ∉ p.steps) (hp : Admits p) :
    d.at? p = (d.get? (Location.start.along p.steps)).filter fun node =>
      !p.toDirectory || node == .directory := by
  obtain ⟨hrejects, hfits⟩ := hp
  cases hwalk : d.walk p with
  | ok target =>
    obtain ⟨rfl, -⟩ := along_of_walkFrom hback (walk_eq_ok_iff.1 hwalk).2
    rw [at?, hwalk]
  | error e =>
    have hnone : d.get? (Location.start.along p.steps) = none := by
      cases hnode : d.get? (Location.start.along p.steps) with
      | none => rfl
      | some node =>
        have hreached := htree.walkFrom_of_node hback hfits hnode
        rw [walk_eq_ok_iff.2 ⟨hrejects, hreached⟩] at hwalk
        cases hwalk
    rw [at?, hwalk, hnone]
    rfl

/-- Nothing is at a path that is refused for what it is made of. -/
theorem at?_of_not_admits (hback : ".." ∉ p.steps) (hp : ¬ Admits p) : d.at? p = none := by
  cases hwalk : d.walk p with
  | error e => rw [at?, hwalk]
  | ok target =>
    obtain ⟨hrejects, hnames⟩ := walk_eq_ok_iff.1 hwalk
    exact absurd ⟨hrejects, (along_of_walkFrom hback hnames).2⟩ hp

end Disk

end Wiretap
