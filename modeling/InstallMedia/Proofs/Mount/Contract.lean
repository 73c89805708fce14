import InstallMedia.Mount.Mounter
import InstallMedia.Proofs.Files.Reach
import InstallMedia.World

/-!
# The contract of mounters

A mounter keeps its contract when a mount that fails leaves an empty directory empty, and an
unmounted directory is empty.  Ledgers tell from what was asked, and how it went, what is mounted
and which mount points stand; what they say of mount points shows in the tree of files.

## Main definitions

* `MountEvent.mounted`, `PointEvent.standing`: the targets mounted and the directories left
* `Mounter.KeepsContract`
* `World.mountedSince`, `World.standingSince`: the same, since a first world
* `World.Books`: what the ledgers say of a world
* `World.Relocates`: what becomes of the mount point, in the ledger and in the tree

## Main results

* `World.Books.mount`, `World.Books.unmount`, `World.Books.makeTemporary`, `World.Books.remove`
* `Mounter.ofNothing_keepsContract`: a mounter that keeps its contract
-/

namespace InstallMedia

/-! ## Ledgers -/

/-- The targets that are mounted after an event. -/
def MountEvent.settle (targets : List String) : MountEvent → List String
  | .mount call none => targets ++ [call.target]
  | .unmount target none => targets.erase target
  | .mount _ (some _) => targets
  | .unmount _ (some _) => targets

/-- The targets on which a mount succeeded and that were not unmounted since. -/
def MountEvent.mounted (events : List MountEvent) : List String := events.foldl settle []

/-- The directories that are left after an event. -/
def PointEvent.settle (points : List String) : PointEvent → List String
  | .made path => points ++ [path]
  | .removed path => points.erase path

/-- The directories that were made and not taken away since. -/
def PointEvent.standing (events : List PointEvent) : List String := events.foldl settle []

theorem MountEvent.mounted_concat (events : List MountEvent) (event : MountEvent) :
    mounted (events ++ [event]) = event.settle (mounted events) := by
  simp [mounted]

theorem PointEvent.standing_concat (events : List PointEvent) (event : PointEvent) :
    standing (events ++ [event]) = event.settle (standing events) := by
  simp [standing]

/-! ## Contract -/

/-- What sources rely on.  Files stay a tree, whatever is done; a mount that fails leaves an empty
directory empty; an unmounted directory is empty. -/
structure Mounter.KeepsContract (m : Mounter) : Prop where
  mount_isTree : ∀ past call files, files.IsTree → (m.mount past call files).2.IsTree
  unmount_isTree : ∀ past target files, files.IsTree → (m.unmount past target files).2.IsTree
  mount_failed : ∀ past call files fault files', files.IsTree → files.IsVacant call.target →
    m.mount past call files = (.error fault, files') → files'.IsVacant call.target
  unmounted : ∀ past target files files', files.IsTree →
    m.unmount past target files = (.ok (), files') → files'.IsVacant target

/-- The mounter of empty filesystems, of all but some types.  It unmounts what is empty. -/
def Mounter.ofNothing (refused : List String) : Mounter where
  mount _ call files := (if call.fstype ∈ refused then .error (.rejected 32) else .ok (), files)
  unmount _ target files :=
    (if files.IsVacant target then .ok () else .error (.rejected 32), files)

theorem Mounter.ofNothing_keepsContract (refused : List String) :
    (Mounter.ofNothing refused).KeepsContract where
  mount_isTree _ _ _ h := h
  unmount_isTree _ _ _ h := h
  mount_failed _ _ _ _ _ _ vacant h := by
    obtain ⟨-, rfl⟩ := Prod.mk.inj h
    exact vacant
  unmounted _ _ _ _ _ h := by
    obtain ⟨result, rfl⟩ := Prod.mk.inj h
    split at result
    · assumption
    · cases result

/-! ## Worlds -/

namespace World

/-- What was done since a first world: files are a tree still, the mounter is the same, and the
ledgers say that these targets are mounted and these mount points stand. -/
structure Books (first w : World) (mounted standing : List String) : Prop where
  isTree : w.files.IsTree
  mounter_eq : w.mounter = first.mounter
  mounted_eq : ∃ events, w.mountEvents = first.mountEvents ++ events ∧
    MountEvent.mounted events = mounted
  standing_eq : ∃ points, w.mountPoints = first.mountPoints ++ points ∧
    PointEvent.standing points = standing

/-- What is noted between two worlds, as another mount point is held, or none.  A directory is made
where nothing stood, and nothing stands where one was taken away. -/
inductive Relocates (w w' : World) : Option String → Option String → Prop where
  /-- Nothing is noted. -/
  | still {held : Option String} (noted : w'.mountPoints = w.mountPoints) : Relocates w w' held held
  /-- A mount point is made, and held. -/
  | made {target : String} (vacant : w.files.entry? (w.files.locationOf target) = none)
      (noted : w'.mountPoints = w.mountPoints ++ [.made target]) :
    Relocates w w' none (some target)
  /-- A mount point is made and taken away. -/
  | tried {target : String} (vacant : w.files.entry? (w.files.locationOf target) = none)
      (noted : w'.mountPoints = w.mountPoints ++ [.made target, .removed target])
      (gone : w'.files.entry? (w'.files.locationOf target) = none) : Relocates w w' none none
  /-- The mount point that was held is taken away. -/
  | removed {target : String} (noted : w'.mountPoints = w.mountPoints ++ [.removed target])
      (gone : w'.files.entry? (w'.files.locationOf target) = none) :
    Relocates w w' (some target) none

variable {first w : World} {mounted standing : List String}

/-- The targets that were mounted since a first world and not unmounted since. -/
def mountedSince (first w : World) : List String :=
  MountEvent.mounted (w.mountEvents.drop first.mountEvents.length)

/-- The temporary directories that were made since a first world and not taken away since. -/
def standingSince (first w : World) : List String :=
  PointEvent.standing (w.mountPoints.drop first.mountPoints.length)

theorem Books.mountedSince_eq (h : Books first w mounted standing) :
    mountedSince first w = mounted := by
  obtain ⟨events, hevents, rfl⟩ := h.mounted_eq
  rw [mountedSince, hevents, List.drop_left]

theorem Books.standingSince_eq (h : Books first w mounted standing) :
    standingSince first w = standing := by
  obtain ⟨points, hpoints, rfl⟩ := h.standing_eq
  rw [standingSince, hpoints, List.drop_left]

theorem Books.refl (h : first.files.IsTree) : Books first first [] [] :=
  ⟨h, rfl, ⟨[], by simp, rfl⟩, ⟨[], by simp, rfl⟩⟩

/-- Files that are a tree still change no ledger. -/
theorem Books.withFiles (h : Books first w mounted standing) {files : FileTree}
    (isTree : files.IsTree) : Books first { w with files } mounted standing :=
  ⟨isTree, h.mounter_eq, h.mounted_eq, h.standing_eq⟩

/-- An event settles its ledger. -/
theorem Books.event (h : Books first w mounted standing) {files : FileTree}
    (isTree : files.IsTree) (event : MountEvent) :
    Books first { w with files, mountEvents := w.mountEvents ++ [event] }
      (event.settle mounted) standing := by
  obtain ⟨events, hevents, rfl⟩ := h.mounted_eq
  refine ⟨isTree, h.mounter_eq, ⟨events ++ [event], ?_, ?_⟩, h.standing_eq⟩
  · rw [hevents, List.append_assoc]
  · rw [MountEvent.mounted_concat]

theorem Books.point (h : Books first w mounted standing) {files : FileTree}
    (isTree : files.IsTree) (event : PointEvent) :
    Books first { w with files, mountPoints := w.mountPoints ++ [event] } mounted
      (event.settle standing) := by
  obtain ⟨points, hpoints, rfl⟩ := h.standing_eq
  refine ⟨isTree, h.mounter_eq, h.mounted_eq, ⟨points ++ [event], ?_, ?_⟩⟩
  · rw [hpoints, List.append_assoc]
  · rw [PointEvent.standing_concat]

section Mounts

variable {own : Option Mounter} (contract : (own.getD first.mounter).KeepsContract)

include contract

theorem Books.mount (h : Books first w mounted standing) (call : MountCall) :
    ∃ w', (World.mount own call w = (.ok (), w') ∧
        Books first w' (mounted ++ [call.target]) standing ∨
      (∃ fault, World.mount own call w = (.error fault, w')) ∧ Books first w' mounted standing ∧
        (w.files.IsVacant call.target → w'.files.IsVacant call.target)) ∧
      (∃ fault, w'.mountEvents = w.mountEvents ++ [.mount call fault]) ∧
      w'.mountPoints = w.mountPoints := by
  -- The mounter is still the first one, of which the contract is known.
  rw [← h.mounter_eq] at contract
  have isTree := contract.mount_isTree w.mountEvents call w.files h.isTree
  have failed := contract.mount_failed w.mountEvents call w.files
  rw [World.mount]
  cases hm : (own.getD w.mounter).mount w.mountEvents call w.files with
  | mk result files =>
    rw [hm] at isTree
    have books := h.event isTree (.mount call (faultOf result))
    refine ⟨{ w with files, mountEvents := w.mountEvents ++ [.mount call (faultOf result)] }, ?_,
      ⟨_, rfl⟩, rfl⟩
    cases result with
    | ok _ => exact Or.inl ⟨rfl, books⟩
    | error fault =>
      exact Or.inr ⟨⟨fault, rfl⟩, books, fun vacant => failed fault files h.isTree vacant hm⟩

theorem Books.unmount (h : Books first w mounted standing) (target : String) :
    ∃ w', (World.unmount own target w = (.ok (), w') ∧
        Books first w' (mounted.erase target) standing ∧ w'.files.IsVacant target ∨
      (∃ fault, World.unmount own target w = (.error fault, w')) ∧
        Books first w' mounted standing) ∧
      (∃ fault, w'.mountEvents = w.mountEvents ++ [.unmount target fault]) ∧
      w'.mountPoints = w.mountPoints := by
  rw [← h.mounter_eq] at contract
  have isTree := contract.unmount_isTree w.mountEvents target w.files h.isTree
  have unmounted := contract.unmounted w.mountEvents target w.files
  rw [World.unmount]
  cases hm : (own.getD w.mounter).unmount w.mountEvents target w.files with
  | mk result files =>
    rw [hm] at isTree
    have books := h.event isTree (.unmount target (faultOf result))
    refine ⟨{ w with files, mountEvents := w.mountEvents ++ [.unmount target (faultOf result)] },
      ?_, ⟨_, rfl⟩, rfl⟩
    cases result with
    | ok _ => exact Or.inl ⟨rfl, books, unmounted files h.isTree hm⟩
    | error fault => exact Or.inr ⟨⟨fault, rfl⟩, books⟩

end Mounts

/-- A temporary directory that is made stands where nothing stood, and is empty. -/
theorem Books.makeTemporary (h : Books first w mounted standing) (root stem : String) :
    (∃ cause, World.makeTemporary root stem w = (.error cause, w)) ∨
      ∃ path w', World.makeTemporary root stem w = (.ok path, w') ∧
        Books first w' mounted (standing ++ [path]) ∧ w'.files.IsVacant path ∧
        w'.mountEvents = w.mountEvents ∧ w'.mountPoints = w.mountPoints ++ [.made path] ∧
        w.files.entry? (w.files.locationOf path) = none ∧
        ∃ above number, path = FilePath.join above (FileTree.temporaryName stem number) := by
  cases hm : w.files.makeTemporary root stem with
  | error cause =>
    left
    have failed : onFiles (·.makeTemporary root stem) w = (.error cause, w) := by
      simp [onFiles, hm]
    exact ⟨cause, Attempt.bind_of_error failed⟩
  | ok found =>
    right
    obtain ⟨path, files⟩ := found
    obtain ⟨isTree, vacant⟩ := FileTree.makeTemporary_spec h.isTree hm
    obtain ⟨here, name, number, named, -, none, made, leads⟩ := FileTree.made_of_makeTemporary hm
    have done : onFiles (·.makeTemporary root stem) w = (.ok path, { w with files }) := by
      simp [onFiles, hm]
    -- The path leads to the directory that was made, so nothing stood at its location.
    have place : here ++ [name] = w.files.locationOf path := by
      have reached := FileTree.location_of_find leads
      rwa [made] at reached
    rw [place] at none
    exact ⟨path, _, Attempt.bind_of_ok done, h.point isTree (.made path), vacant, rfl, rfl, none,
      _, number, named⟩

/-- An empty directory that is taken away stands no more, and nothing stands in its place. -/
theorem Books.remove (h : Books first w mounted standing) {path : String}
    (vacant : w.files.IsVacant path) (below : w.files.locationOf path ≠ []) :
    let w' := w.tryRemoveDirectory path
    Books first w' mounted (standing.erase path) ∧ w'.mountEvents = w.mountEvents ∧
      w'.mountPoints = w.mountPoints ++ [.removed path] ∧
      w'.files.entry? (w'.files.locationOf path) = none := by
  obtain ⟨location, files, found, removed, isTree, same, gone, -⟩ :=
    FileTree.removeDirectory_of_isVacant h.isTree vacant
  obtain rfl : location = w.files.locationOf path := FileTree.location_of_find found
  have place : files.locationOf path = w.files.locationOf path := by
    rw [FileTree.locationOf, same, FileTree.locationOf]
  intro w'
  have after : w' = { w with files, mountPoints := w.mountPoints ++ [.removed path] } := by
    simp only [w', tryRemoveDirectory, removed]
  rw [after]
  refine ⟨h.point isTree (.removed path), rfl, rfl, ?_⟩
  rw [place]
  exact gone below

end World

end InstallMedia
