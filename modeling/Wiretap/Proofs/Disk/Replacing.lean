import Wiretap.Proofs.Disk.Trees
/-!
# A file is replaced wholly or not at all

Replacing a file makes the directories to it, writes a neighbour, and moves the neighbour to the
end of the path.  Each of these may fail, and what the path shows must not have changed then.

* Making directories turns nothing into directories and does no more (`Grown`); on a path without
  two dots these lie less deep than its end, so what is at the end stays (`at?_makeDirectories`).
* The neighbour is another location than the end of the path, whatever the path
  (`neighbour_apart`), so writing it changes nothing there (`Wrote.at?`).
* Only the last step, moving the neighbour, changes the end of the path, and it fails or is done
  at once (`replace_cases`).
-/

namespace Wiretap.Disk

variable {d d' : Disk}

/-- A walk ends at the same place on disks that have the same directories. -/
theorem walk_eq_ok_congr (h : ∀ l, d.get? l = some .directory ↔ d'.get? l = some .directory)
    {p : Path} {target : Location} : d.walk p = .ok target ↔ d'.walk p = .ok target :=
  ⟨walk_mono fun l => (h l).1, walk_mono fun l => (h l).2⟩

/-! ## Making directories -/

/-- A disk that has grown: where nothing was, but not deeper than so many names, directories may
have come. -/
structure Grown (d d' : Disk) (depth : Nat) : Prop where
  tree : d'.IsTree
  grown : ∀ l, d'.get? l = d.get? l ∨ d.get? l = none ∧ d'.get? l = some .directory
  deeper : ∀ l, depth < l.depth → d'.get? l = d.get? l

/-- A tree has grown from itself, by nothing. -/
theorem Grown.refl (htree : d.IsTree) (depth : Nat) : Grown d d depth :=
  ⟨htree, fun _ => .inl rfl, fun _ _ => rfl⟩

/-- Directories stay as more are made. -/
theorem Grown.directory {depth : Nat} (h : Grown d d' depth) {l : Location}
    (hl : d.get? l = some .directory) : d'.get? l = some .directory := by
  rcases h.grown l with hsame | ⟨hnone, -⟩
  · rw [hsame, hl]
  · rw [hnone] at hl
    cases hl

/-- What has grown twice has grown. -/
theorem Grown.trans {d'' : Disk} {first second depth : Nat} (h : Grown d d' first)
    (h' : Grown d' d'' second) (hfirst : first ≤ depth) (hsecond : second ≤ depth) :
    Grown d d'' depth := by
  refine ⟨h'.tree, fun l => ?_, fun l hl => ?_⟩
  · rcases h.grown l with hsame | ⟨hnone, hnew⟩
    · have := h'.grown l
      rwa [hsame] at this
    · exact .inr ⟨hnone, h'.directory hnew⟩
  · rw [h'.deeper l (by omega), h.deeper l (by omega)]

/-- One directory more. -/
theorem Grown.put (htree : d.IsTree) {place : Location} {name : String} (hname : name ≠ "..")
    (hplace : d.get? place = some .directory) (hnew : d.get? (place.child name) = none) :
    Grown d (d.put (place.child name) .directory) (place.depth + 1) := by
  have hfree : d.get? (place.child name) ≠ some .directory := by
    rw [hnew]
    simp
  have hself : (d.put (place.child name) .directory).get? (place.child name) = some .directory :=
    get?_put_self d (Location.isAbove_child hname) _
  refine ⟨htree.put hfree ?_, fun l => ?_, fun l hl => ?_⟩
  · rw [Location.back_child hname]
    exact hplace
  · by_cases hl : place.child name = l
    · rw [← hl]
      exact .inr ⟨hnew, hself⟩
    · exact .inl (get?_put_other d hl _)
  · refine get?_put_other d ?_ _
    rintro rfl
    exact absurd hl (Nat.lt_irrefl _)

/-- **Making directories.**  By induction on the steps; two dots lead from a directory to one. -/
theorem grown_makeDirectoriesFrom (htree : d.IsTree) {place : Location}
    (hplace : d.get? place = some .directory) (made : Nat) (steps : List String) :
    Grown d (d.makeDirectoriesFrom place made steps).2 (place.depth + steps.length) := by
  induction steps generalizing d place made with
  | nil => exact .refl htree _
  | cons step rest ih =>
    rw [makeDirectoriesFrom, List.length_cons]
    by_cases hstep : step = ".."
    · have hdepth := place.depth_back_le
      rw [if_pos hstep]
      exact (Grown.refl htree 0).trans (ih htree (htree _ _ hplace) made) (Nat.zero_le _) (by omega)
    · have hdepth : (place.child step).depth = place.depth + 1 := rfl
      rw [if_neg hstep]
      dsimp only
      split
      · rename_i hnext
        exact (Grown.refl htree 0).trans (ih htree hnext made) (Nat.zero_le _) (by omega)
      · exact .refl htree _
      · rename_i hnext
        split
        · exact .refl htree _
        · have hgrown := Grown.put htree hstep hplace hnext
          have hself : (d.put (place.child step) .directory).get? (place.child step) =
              some .directory := get?_put_self d (Location.isAbove_child hstep) _
          exact hgrown.trans (ih hgrown.tree hself (made + 1)) (by omega) (by omega)

/-- To make the directories of a path changes nothing but that directories grow along it. -/
theorem grown_makeDirectories (htree : d.IsTree) (p : Path) :
    Grown d (d.makeDirectories p).2 p.steps.length := by
  unfold makeDirectories
  split
  · exact .refl htree _
  · have hstart : d.get? .start = some .directory := rfl
    have h := grown_makeDirectoriesFrom htree hstart 0 p.steps
    rwa [show Location.start.depth = 0 from rfl, Nat.zero_add] at h

/-- Where all directories are there, none is made. -/
theorem makeDirectoriesFrom_of_walk {place here : Location} {steps : List String}
    (h : d.walkFrom place steps = .ok here) (hhere : d.get? here = some .directory) (made : Nat) :
    d.makeDirectoriesFrom place made steps = (.ok (), d) := by
  induction steps generalizing place with
  | nil => rfl
  | cons step rest ih =>
    obtain ⟨-, -, hrest⟩ := walkFrom_cons.1 h
    have hnext : d.get? (stepFrom place step) = some .directory := by
      cases rest with
      | nil =>
        cases hrest
        exact hhere
      | cons _ _ => exact (walkFrom_cons.1 hrest).1
    have hmade := ih hrest
    unfold stepFrom at hnext hmade
    rw [makeDirectoriesFrom]
    by_cases hstep : step = ".."
    · rw [if_pos hstep] at hmade ⊢
      exact hmade
    · rw [if_neg hstep] at hnext hmade ⊢
      simp only [hnext]
      exact hmade

/-- Directories that are there already are not made again. -/
theorem makeDirectories_of_at? {p : Path} (h : d.at? p = some .directory) :
    d.makeDirectories p = (.ok (), d) := by
  obtain ⟨here, hwalk, hhere⟩ := exists_of_at? h
  obtain ⟨hrejects, hwalk⟩ := walk_eq_ok_iff.1 hwalk
  rw [makeDirectories, hrejects]
  exact makeDirectoriesFrom_of_walk hwalk hhere 0

/-! ## The neighbour -/

/-- Making a file puts an empty one at the end of the path, or does nothing. -/
theorem create_cases (d : Disk) (p : Path) :
    (∃ e, d.create p = (.error e, d)) ∨
      ∃ place, d.walk p = .ok place ∧ d.get? place ≠ some .directory ∧
        d.create p = (.ok place, d.put place (.file .empty)) := by
  unfold create
  cases hwalk : d.walk p with
  | error e => exact .inl ⟨e, rfl⟩
  | ok place =>
    dsimp only
    split
    · exact .inl ⟨.refused, rfl⟩
    · rename_i hfree
      rw [not_or] at hfree
      exact .inr ⟨place, rfl, hfree.1, rfl⟩

/-- Writing puts what was written at the location of the file, all of it if writing succeeds. -/
theorem write_cases (d : Disk) (place : Location) (bytes : ByteArray) :
    (∃ e kept, d.write place bytes = (.error e, d.put place (.file kept))) ∨
      d.write place bytes = (.ok (), d.put place (.file bytes)) := by
  unfold write
  split
  · split
    · exact .inl ⟨_, _, rfl⟩
    · exact .inr rfl
  · exact .inr rfl

/-- Moving a file puts it at the end of the path, or does nothing. -/
theorem rename_cases (d : Disk) (place : Location) (p : Path) :
    (∃ e, d.rename place p = (.error e, d)) ∨
      ∃ target node, d.walk p = .ok target ∧ d.get? place = some node ∧
        d.get? target ≠ some .directory ∧ p.toDirectory = false ∧
        d.rename place p = (.ok (), (d.remove place).put target node) := by
  unfold rename
  cases hwalk : d.walk p with
  | error e => exact .inl ⟨e, rfl⟩
  | ok target =>
    dsimp only
    cases hnode : d.get? place with
    | none => exact .inl ⟨.notFound, rfl⟩
    | some node =>
      dsimp only
      split
      · exact .inl ⟨.refused, rfl⟩
      · rename_i hfree
        rw [not_or, not_or, Bool.not_eq_true] at hfree
        exact .inr ⟨target, node, rfl, rfl, hfree.1, hfree.2.1, rfl⟩

/-- A disk after a file was written at a location, whatever was kept of it. -/
structure Wrote (d d' : Disk) (place : Location) (bytes : ByteArray) : Prop where
  here : d'.get? place = some (.file bytes)
  elsewhere : ∀ l, place ≠ l → d'.get? l = d.get? l

/-- A file that is made and then filled is written. -/
theorem wrote_put {place : Location} (hplace : d.get? place ≠ some .directory)
    (first bytes : ByteArray) :
    Wrote d ((d.put place (.file first)).put place (.file bytes)) place bytes := by
  have hunder := isAbove_eq_false hplace
  refine ⟨get?_put_self _ hunder _, fun l hl => ?_⟩
  rw [get?_put_other _ hl, get?_put_other _ hl]

namespace Wrote

variable {place : Location} {bytes : ByteArray} (h : Wrote d d' place bytes)
  (hplace : d.get? place ≠ some .directory)

include h hplace

/-- A file in place of a file changes no directory. -/
theorem directory_iff (l : Location) :
    d.get? l = some .directory ↔ d'.get? l = some .directory := by
  by_cases hl : place = l
  · rw [← hl, h.here]
    simp [hplace]
  · rw [h.elsewhere l hl]

/-- A tree stays a tree when a file is written into a directory of it. -/
theorem isTree (htree : d.IsTree) (hback : d.get? place.back = some .directory) : d'.IsTree := by
  intro l node hl
  rw [← h.directory_iff hplace]
  by_cases hsame : place = l
  · rw [← hsame]
    exact hback
  · rw [h.elsewhere l hsame] at hl
    exact htree l node hl

end Wrote

/-- What is reached on a tree and is no directory stands in one, to which the last step was not
taken back. -/
theorem last_step (htree : d.IsTree) {p : Path} {target : Location} (h : d.walk p = .ok target)
    (htarget : d.get? target ≠ some .directory) :
    ∃ here name, d.walk p.parent = .ok here ∧ d.get? here = some .directory ∧
      p.steps = p.parent.steps ++ [name] ∧ p.name? = some name ∧ target = here.child name ∧
      target.back = here := by
  rcases p.steps_cases with ⟨hsteps, -, -⟩ | ⟨last, hsteps, hname⟩
  · have hwalk := (walk_eq_ok_iff.1 h).2
    rw [hsteps] at hwalk
    cases hwalk
    exact absurd rfl htarget
  · obtain ⟨here, hhere, hdirectory, rfl⟩ := walk_of_step hsteps h
    have hforward : last ≠ ".." := by
      rintro rfl
      exact htarget (htree _ _ hdirectory)
    have hlast : p.name? = some last := by simp [hname, hforward]
    rw [stepFrom, if_neg hforward]
    exact ⟨here, last, hhere, hdirectory, hsteps, hlast, rfl, Location.back_child hforward⟩

/-- What is reached and is not a directory stands in one. -/
theorem back_of_walk (htree : d.IsTree) {p : Path} {target : Location} (h : d.walk p = .ok target)
    (htarget : d.get? target ≠ some .directory) : d.get? target.back = some .directory := by
  obtain ⟨here, -, -, hdirectory, -, -, -, hback⟩ := last_step htree h htarget
  rw [hback]
  exact hdirectory

/-- **The neighbour is apart.**  On a tree a path with another extension does not lead to the file
that is written first. -/
theorem neighbour_apart (htree : d.IsTree) {p : Path} (hext : p.extension? ≠ some "tmp")
    {place target : Location} (hplace : d.walk (p.withExtension "tmp") = .ok place)
    (hfile : d.get? place ≠ some .directory) (htarget : d.walk p = .ok target) :
    place ≠ target := by
  rintro rfl
  obtain ⟨here, other, -, -, hother, -, hchild, -⟩ := last_step htree hplace hfile
  obtain ⟨here', name, -, -, -, hname, hchild', -⟩ := last_step htree htarget hfile
  have hsame : other = name := by
    have hlocation := hchild.symm.trans hchild'
    exact (List.cons.inj (congrArg Location.names hlocation)).1
  have hneighbour := Path.steps_withExtension hname (show "tmp" ≠ "" by decide)
  rw [hother, p.parent_withExtension (by decide), List.append_cancel_left_eq] at hneighbour
  have heq : other = p.neighbour name "tmp" := List.head_eq_of_cons_eq hneighbour
  exact Path.neighbour_ne hname hext (by decide) (heq.symm.trans hsame)

/-! ## Replacing -/

/-- **What replacing a file does.**  Directories have been made to it.  Then it stops, or a
neighbour is written that is no directory; and then it stops again, or all of the text was written
and the neighbour is moved to the end of the path. -/
theorem replace_cases (d : Disk) (p : Path) (bytes : ByteArray) :
    (∃ e, d.replace p bytes = (.error e, (d.makeDirectories p.parent).2)) ∨
      ∃ place, (d.makeDirectories p.parent).2.walk (p.withExtension "tmp") = .ok place ∧
        (d.makeDirectories p.parent).2.get? place ≠ some .directory ∧
        ∃ kept written, Wrote (d.makeDirectories p.parent).2 written place kept ∧
          ((∃ e, d.replace p bytes = (.error e, written)) ∨
            kept = bytes ∧ ∃ target, written.walk p = .ok target ∧
              written.get? target ≠ some .directory ∧ p.toDirectory = false ∧
              d.replace p bytes = (.ok (), (written.remove place).put target (.file bytes))) := by
  unfold replace
  cases hmade : d.makeDirectories p.parent with
  | mk result made =>
    cases result with
    | error e => exact .inl ⟨e, rfl⟩
    | ok _ =>
      dsimp only
      rcases create_cases made (p.withExtension "tmp") with
        ⟨e, hcreate⟩ | ⟨place, hwalk, hfile, hcreate⟩
      · rw [hcreate]
        exact .inl ⟨e, rfl⟩
      · right
        refine ⟨place, hwalk, hfile, ?_⟩
        rw [hcreate]
        dsimp only
        rcases write_cases (made.put place (.file .empty)) place bytes with
          ⟨e, kept, hwrite⟩ | hwrite
        · rw [hwrite]
          exact ⟨kept, _, wrote_put hfile _ kept, .inl ⟨e, rfl⟩⟩
        · have hwrote := wrote_put hfile .empty bytes
          rw [hwrite]
          refine ⟨bytes, _, hwrote, ?_⟩
          dsimp only
          split
          · exact .inl ⟨_, rfl⟩
          · rcases rename_cases ((made.put place (.file .empty)).put place (.file bytes)) place p
              with ⟨e, hrename⟩ | ⟨target, node, htarget, hnode, hfree, hend, hrename⟩
            · exact .inl ⟨e, hrename⟩
            · rw [hwrote.here] at hnode
              cases hnode
              exact .inr ⟨rfl, target, htarget, hfree, hend, hrename⟩

/-- Where directories were made to a path, there is at its end what was there before, if nothing
leads back or all directories were there. -/
theorem at?_makeDirectories (htree : d.IsTree) {p : Path}
    (h : ".." ∉ p.steps ∨ d.at? p.parent = some .directory) :
    (d.makeDirectories p.parent).2.at? p = d.at? p := by
  rcases h with hback | hparent
  · have hgrown := grown_makeDirectories htree p.parent
    by_cases hp : Admits p
    · have hsame : (d.makeDirectories p.parent).2.get? (Location.start.along p.steps) =
          d.get? (Location.start.along p.steps) := by
        rcases p.steps_cases with ⟨hnone, -, -⟩ | ⟨last, hsteps, -⟩
        · rw [hnone]
          rfl
        · refine hgrown.deeper _ ?_
          rw [Location.depth_along, hsteps, List.length_append, List.length_singleton]
          omega
      rw [hgrown.tree.at?_along hback hp, htree.at?_along hback hp, hsame]
    · rw [at?_of_not_admits hback hp, at?_of_not_admits hback hp]
  · rw [makeDirectories_of_at? hparent]

/-- A file that is written apart from the end of a path changes nothing there. -/
theorem Wrote.at? {place : Location} {bytes : ByteArray} (h : Wrote d d' place bytes)
    (hplace : d.get? place ≠ some .directory) {p : Path}
    (hapart : ∀ target, d.walk p = .ok target → place ≠ target) : d'.at? p = d.at? p := by
  cases hwalk : d.walk p with
  | ok target =>
    have hwalk' := (walk_eq_ok_congr (h.directory_iff hplace)).1 hwalk
    exact at?_congr hwalk hwalk' (h.elsewhere target (hapart target hwalk))
  | error e =>
    cases hwalk' : d'.walk p with
    | error _ => rw [Disk.at?, Disk.at?, hwalk, hwalk']
    | ok target =>
      rw [(walk_eq_ok_congr (h.directory_iff hplace)).2 hwalk'] at hwalk
      cases hwalk

/-- A disk after a file was moved to the end of a path. -/
structure Moved (d d' : Disk) (place target : Location) (bytes : ByteArray) : Prop where
  tree : d'.IsTree
  arrived : d'.get? target = some (.file bytes)
  left : d'.get? place = none
  elsewhere : ∀ l, place ≠ l → target ≠ l → d'.get? l = d.get? l
  directory : ∀ l, d.get? l = some .directory → d'.get? l = some .directory

/-- To take a file from its place and put it to another is to move it. -/
theorem moved (htree : d.IsTree) {place target : Location}
    (hplace : d.get? place ≠ some .directory) (hne : place ≠ target)
    (htarget : d.get? target ≠ some .directory) (hback : d.get? target.back = some .directory)
    (bytes : ByteArray) :
    Moved d ((d.remove place).put target (.file bytes)) place target bytes := by
  have hkept : ∀ l, place ≠ l → (d.remove place).get? l = d.get? l :=
    fun l => get?_remove_other
  have hapart : ∀ l, d.get? l = some .directory → place ≠ l := by
    rintro l hl rfl
    exact hplace hl
  refine ⟨(htree.remove hplace).put ?_ ?_, get?_put_self _ (isAbove_eq_false htarget) _, ?_, ?_, ?_⟩
  · rw [hkept _ hne]
    exact htarget
  · rw [hkept _ (hapart _ hback)]
    exact hback
  · rw [get?_put_other _ (Ne.symm hne), get?_remove_self (isAbove_eq_false hplace)]
  · intro l hl hl'
    rw [get?_put_other _ hl', hkept l hl]
  · intro l hl
    have hl' : target ≠ l := by
      rintro rfl
      exact htarget hl
    rw [get?_put_other _ hl', hkept l (hapart l hl), hl]

/-- What replacing a file comes to, whether it succeeds or fails. -/
structure Replaced (d d' : Disk) (p : Path) (bytes : ByteArray) (result : Except DiskError Unit) :
    Prop where
  tree : d'.IsTree
  /-- But for the ends of the path and of its neighbour, directories may have come where nothing
  was, and that is all. -/
  elsewhere : ∀ l, d'.walk p ≠ .ok l → d'.walk (p.withExtension "tmp") ≠ .ok l →
    d'.get? l = d.get? l ∨ d.get? l = none ∧ d'.get? l = some .directory
  /-- A failure leaves what is at the end of the path. -/
  stays : result ≠ .ok () → ".." ∉ p.steps ∨ d.at? p.parent = some .directory →
    d'.at? p = d.at? p
  done : result = .ok () → d'.at? p = some (.file bytes)
  /-- Nothing is left of the neighbour. -/
  gone : result = .ok () → ∃ place, d'.walk (p.withExtension "tmp") = .ok place ∧
    d'.get? place = none

/-- **A file is replaced wholly or not at all**, whatever the disk refuses. -/
theorem replaced (htree : d.IsTree) {p : Path} (hext : p.extension? ≠ some "tmp")
    (bytes : ByteArray) :
    Replaced d (d.replace p bytes).2 p bytes (d.replace p bytes).1 := by
  have hgrown := grown_makeDirectories htree p.parent
  have hmade := at?_makeDirectories htree (p := p)
  rcases replace_cases d p bytes with
    ⟨e, hstop⟩ | ⟨place, hplace, hfile, kept, written, hwrote, hend⟩
  · rw [hstop]
    exact ⟨hgrown.tree, fun l _ _ => hgrown.grown l, fun _ => hmade, nofun, nofun⟩
  · have hapart : ∀ target, (d.makeDirectories p.parent).2.walk p = .ok target → place ≠ target :=
      fun _ => neighbour_apart hgrown.tree hext hplace hfile
    have htree' : written.IsTree :=
      hwrote.isTree hfile hgrown.tree (back_of_walk hgrown.tree hplace hfile)
    have hwalks : ∀ {q : Path} {l : Location}, (d.makeDirectories p.parent).2.walk q = .ok l ↔
        written.walk q = .ok l := walk_eq_ok_congr (hwrote.directory_iff hfile)
    rcases hend with ⟨e, hstop⟩ | ⟨rfl, target, htarget, hfree, hname, hdone⟩
    · rw [hstop]
      refine ⟨htree', fun l _ hl => ?_, fun _ hparent => ?_, nofun, nofun⟩
      · have hne : place ≠ l := by
          rintro rfl
          exact hl (hwalks.1 hplace)
        rw [hwrote.elsewhere l hne]
        exact hgrown.grown l
      · rw [hwrote.at? hfile hapart, hmade hparent]
    · have hne : place ≠ target := hapart target (hwalks.2 htarget)
      have hplace_file : written.get? place ≠ some .directory := by
        rw [hwrote.here]
        simp
      have hmoved := moved htree' hplace_file hne hfree (back_of_walk htree' htarget hfree) kept
      have htarget' := walk_mono hmoved.directory htarget
      have hplace' := walk_mono hmoved.directory (hwalks.1 hplace)
      rw [hdone]
      refine ⟨hmoved.tree, fun l hl hl' => ?_, fun h => absurd rfl h, fun _ => ?_,
        fun _ => ⟨place, hplace', hmoved.left⟩⟩
      · have hl_target : target ≠ l := by
          rintro rfl
          exact hl htarget'
        have hl_place : place ≠ l := by
          rintro rfl
          exact hl' hplace'
        rw [hmoved.elsewhere l hl_place hl_target, hwrote.elsewhere l hl_place]
        exact hgrown.grown l
      · rw [at?, htarget']
        dsimp only
        rw [hmoved.arrived, hname]
        rfl

end Wiretap.Disk
