import InstallMedia.Proofs.Source.MountCalls

/-!
# Probing

The first start of a mounted source makes one new directory and tries the candidates on it in order,
each of them once, until one can be mounted.  If none can, the start reports why each one was
refused, and takes the directory away again.

## Main definitions

* `MountedSource.Refused`: candidates that were tried in order, and each of them was refused
* `World.MakesPoint`: a new directory on which candidates are tried
* `MountedSource.MountsFirst`, `MountedSource.RefusesAll`: how a first start ends

## Main results

* `MountedSource.probe_cases`: what trying candidates comes to
* `MountedSource.start_probes`: what the first start comes to, whatever the mounter does
-/

namespace InstallMedia

namespace World

/-- A world in which a new directory was made, below the directory for mount points and where
nothing stood before, and nothing else was done. -/
structure MakesPoint (root target : String) (location : Location) (w w' : World) : Prop where
  path_eq : ∃ number, target =
    FilePath.join (w.files.absolute root) (FileTree.temporaryName MountedSource.stem number)
  vacant : w.files.entry? location = none
  found : w'.files.find target = .ok (.present location .directory)
  isEmpty : w.files.IsTree → w'.files.isEmptyAt location = true
  others : ∃ files, w' = { w with files, mountPoints := w.mountPoints ++ [.made target] }

/-- A mount point is made, or nothing is. -/
theorem makeTemporary_cases (root : String) (w : World) :
    (∃ cause, w.files.makeTemporary root MountedSource.stem = .error cause ∧
        makeTemporary root MountedSource.stem w = (.error cause, w)) ∨
      ∃ target location w', makeTemporary root MountedSource.stem w = (.ok target, w') ∧
        MakesPoint root target location w w' := by
  cases hm : w.files.makeTemporary root MountedSource.stem with
  | error cause =>
    have failed : onFiles (·.makeTemporary root MountedSource.stem) w = (.error cause, w) := by
      simp [onFiles, hm]
    exact Or.inl ⟨cause, rfl, Attempt.bind_of_error failed⟩
  | ok found =>
    obtain ⟨target, files⟩ := found
    have done : onFiles (·.makeTemporary root MountedSource.stem) w =
        (.ok target, { w with files }) := by
      simp [onFiles, hm]
    obtain ⟨here, name, number, path, -, vacant, -, leads⟩ := FileTree.made_of_makeTemporary hm
    refine Or.inr ⟨target, here ++ [name], _, Attempt.bind_of_ok done, ⟨number, path⟩, vacant,
      leads, fun isTree => ?_, files, rfl⟩
    -- The directory that is empty is the one to which the path leads.
    obtain ⟨-, location, leads', empty⟩ := FileTree.makeTemporary_spec isTree hm
    obtain rfl : here ++ [name] = location := by
      have same := leads.symm.trans leads'
      simpa using same
    exact empty

end World

open World (MakesPoint)

namespace MountedSource

/-! ## Trying candidates -/

/-- Candidates that were tried in order, each of them once, from one world to another.  Each of them
was refused with the fault beside it. -/
inductive Refused (own : Option Mounter) (device target : String) :
    List (MountCandidate × MountFault) → World → World → Prop
  | nil (w : World) : Refused own device target [] w w
  | cons {c : MountCandidate} {fault : MountFault} {w w₁ w₂ : World}
      {later : List (MountCandidate × MountFault)}
      (refused : World.mount own (c.call device target) w = (.error fault, w₁))
      (more : Refused own device target later w₁ w₂) :
    Refused own device target ((c, fault) :: later) w w₂

/-- The mount by which a refused candidate was tried, as it is noted. -/
def refusal (device target : String) (refused : MountCandidate × MountFault) : MountEvent :=
  .mount (refused.1.call device target) (some refused.2)

/-- A refused candidate, as it is reported. -/
def report (refused : MountCandidate × MountFault) : String × MountFault :=
  (refused.1.fstype, refused.2)

variable {own : Option Mounter} {device target : String} {w w₁ : World}
  {refused : List (MountCandidate × MountFault)}

/-- Every mount that was refused is noted once, in order. -/
theorem Refused.mountEvents (h : Refused own device target refused w w₁) :
    w₁.mountEvents = w.mountEvents ++ refused.map (refusal device target) := by
  induction h with
  | nil w => simp
  | @cons c fault w w₁ w₂ later first more ih =>
    rw [ih, World.mountEvents_of_mount first, List.append_assoc]
    rfl

/-- Mount points are left to those who made them. -/
theorem Refused.mountPoints (h : Refused own device target refused w w₁) :
    w₁.mountPoints = w.mountPoints := by
  induction h with
  | nil w => rfl
  | cons first more ih =>
    obtain ⟨-, rfl⟩ := Prod.mk.inj first
    exact ih

/-- Candidates are tried up to the first that can be mounted, or all of them are refused. -/
theorem probe_cases (own : Option Mounter) (device target : String)
    (candidates : List MountCandidate) (w : World) :
    (∃ refused c rest w₁ w₂, candidates = refused.map Prod.fst ++ c :: rest ∧
        Refused own device target refused w w₁ ∧
        World.mount own (c.call device target) w₁ = (.ok (), w₂) ∧
        probe own device target candidates w =
          ⟨refused.map (·.1.prepared) ++ c.prepared :: rest, true, refused.map report, w₂⟩) ∨
      ∃ refused w₁, candidates = refused.map Prod.fst ∧
        Refused own device target refused w w₁ ∧
        probe own device target candidates w =
          ⟨refused.map (·.1.prepared), false, refused.map report, w₁⟩ := by
  -- The world goes on from one refusal to the next, so the induction is over all worlds.
  induction candidates generalizing w with
  | nil => exact Or.inr ⟨[], w, rfl, .nil w, rfl⟩
  | cons c rest ih =>
    rw [probe]
    dsimp only
    cases hm : World.mount own (c.call device target) w with
    | mk result w₁ =>
      have tried : World.mount own
        ⟨device, target, c.prepared.fstype, c.prepared.options⟩ w = (result, w₁) := hm
      rw [tried]
      cases result with
      | ok _ => exact Or.inl ⟨[], c, rest, w, w₁, rfl, .nil w, hm, rfl⟩
      | error fault =>
        dsimp only
        rcases ih w₁ with ⟨refused, c', rest', w₂, w₃, split, more, done, probed⟩ |
          ⟨refused, w₂, split, more, probed⟩
        · refine Or.inl ⟨(c, fault) :: refused, c', rest', w₂, w₃, ?_, .cons hm more, done, ?_⟩
          · rw [split]
            rfl
          · rw [probed, MountCandidate.fstype_prepared]
            rfl
        · refine Or.inr ⟨(c, fault) :: refused, w₂, ?_, .cons hm more, ?_⟩
          · rw [split]
            rfl
          · rw [probed, MountCandidate.fstype_prepared]
            rfl

/-! ## The first start -/

/-- A start that succeeds: the first candidate that can be mounted is mounted on the new directory,
those before it were refused, and those after it were not tried. -/
structure MountsFirst (s : MountedSource) (target : String) (w made : World)
    (after : Except SourceError Unit × MountedSource × World)
    (refused : List (MountCandidate × MountFault)) (c : MountCandidate)
    (rest : List MountCandidate) : Prop where
  candidates_eq : s.candidates = refused.map Prod.fst ++ c :: rest
  tried : ∃ w₁, Refused s.mounter s.device target refused made w₁ ∧
    World.mount s.mounter (c.call s.device target) w₁ = (.ok (), after.2.2)
  mountEvents_eq : after.2.2.mountEvents = w.mountEvents ++
    (refused.map (refusal s.device target) ++ [.mount (c.call s.device target) none])
  mountPoints_eq : after.2.2.mountPoints = w.mountPoints ++ [.made target]
  result_eq : after.1 = .ok ()
  source_eq : after.2.1 =
    { s with
      candidates := refused.map (·.1.prepared) ++ c.prepared :: rest
      state := .held target 0 }
  startCount_eq : after.2.1.startCount = 1
  location_eq : after.2.1.location? = some target

/-- A start that fails: every candidate was refused, which is reported in order, and the new
directory is taken away if it was left empty. -/
structure RefusesAll (s : MountedSource) (target : String) (location : Location) (w made : World)
    (after : Except SourceError Unit × MountedSource × World)
    (refused : List (MountCandidate × MountFault)) : Prop where
  candidates_eq : s.candidates = refused.map Prod.fst
  mountEvents_eq : after.2.2.mountEvents = w.mountEvents ++ refused.map (refusal s.device target)
  result_eq : after.1 = .error (.mountFailure s.device (refused.map report))
  source_eq : after.2.1 = { s with candidates := refused.map (·.1.prepared) }
  startCount_eq : after.2.1.startCount = 0
  location_eq : after.2.1.location? = none
  tried : ∃ w₁, Refused s.mounter s.device target refused made w₁ ∧
    after.2.2 = w₁.tryRemoveDirectory target ∧
    (w₁.files.find target = .ok (.present location .directory) →
      w₁.files.isEmptyAt location = true →
        after.2.2.files = w₁.files.drop location ∧ after.2.2.files.entry? location = none ∧
        after.2.2.mountPoints = w.mountPoints ++ [.made target, .removed target])

variable {s : MountedSource} {made : World} {location : Location}

/-- An empty directory is taken away, and nothing stands in its place. -/
theorem tryRemoveDirectory_of_empty (h : w.files.find target = .ok (.present location .directory))
    (empty : w.files.isEmptyAt location = true) :
    w.tryRemoveDirectory target = { w with
      files := w.files.drop location
      mountPoints := w.mountPoints ++ [.removed target] } := by
  have removed : w.files.removeDirectory target = .ok (w.files.drop location) := by
    rw [FileTree.removeDirectory, h]
    simp [bind, Except.bind, empty]
  rw [World.tryRemoveDirectory, removed]

/-- A start of an idle source ends as its search for a candidate does. -/
theorem start_of_ok (idle : s.state = .idle) {candidates : List MountCandidate} {w' : World}
    (found : mountFirst s.mounter s.device (s.mountRoot.getD w.temporaryDirectory)
      (s.candidates, w) = (.ok target, candidates, w')) :
    start (s, w) = (.ok (), { s with candidates, state := .held target 0 }, w') := by
  rw [start, idle]
  dsimp only [Counted.acquire]
  rw [found]
  rfl

theorem start_of_error (idle : s.state = .idle) {candidates : List MountCandidate} {w' : World}
    {e : SourceError}
    (found : mountFirst s.mounter s.device (s.mountRoot.getD w.temporaryDirectory)
      (s.candidates, w) = (.error e, candidates, w')) :
    start (s, w) = (.error e, { s with candidates }, w') := by
  rw [start, idle]
  dsimp only [Counted.acquire]
  rw [found]
  simp only [Except.map, ← idle]

section Start

variable (idle : s.state = .idle)
  (point : World.MakesPoint (s.mountRoot.getD w.temporaryDirectory) target location w made)
  (hm : World.makeTemporary (s.mountRoot.getD w.temporaryDirectory) stem w = (.ok target, made))

include idle point hm

/-- A candidate that is mounted after others were refused ends the start with one holder. -/
theorem mountsFirst_of_probe {c : MountCandidate} {rest : List MountCandidate} {w₁ w₂ : World}
    (split : s.candidates = refused.map Prod.fst ++ c :: rest)
    (refusals : Refused s.mounter s.device target refused made w₁)
    (done : World.mount s.mounter (c.call s.device target) w₁ = (.ok (), w₂))
    (probed : probe s.mounter s.device target s.candidates made =
      ⟨refused.map (·.1.prepared) ++ c.prepared :: rest, true, refused.map report, w₂⟩) :
    MountsFirst s target w made (start (s, w)) refused c rest := by
  have found : mountFirst s.mounter s.device (s.mountRoot.getD w.temporaryDirectory)
      (s.candidates, w) = (.ok target, refused.map (·.1.prepared) ++ c.prepared :: rest, w₂) := by
    delta mountFirst
    dsimp only
    rw [hm]
    dsimp only
    rw [probed, if_pos rfl]
  rw [start_of_ok idle found]
  obtain ⟨files, others⟩ := point.others
  have events : made.mountEvents = w.mountEvents := by rw [others]
  have points : made.mountPoints = w.mountPoints ++ [.made target] := by rw [others]
  obtain ⟨-, mounted⟩ := Prod.mk.inj done
  refine ⟨split, ⟨w₁, refusals, done⟩, ?_, ?_, rfl, rfl, rfl, rfl⟩
  · -- The refusals are noted first, and the mount that succeeded after them.
    dsimp only
    rw [World.mountEvents_of_mount done, refusals.mountEvents, events, List.append_assoc]
    rfl
  · dsimp only
    rw [← mounted, ← points, ← refusals.mountPoints]

/-- If all candidates are refused, the start fails, and an empty directory is taken away. -/
theorem refusesAll_of_probe {w₁ : World} (split : s.candidates = refused.map Prod.fst)
    (refusals : Refused s.mounter s.device target refused made w₁)
    (probed : probe s.mounter s.device target s.candidates made =
      ⟨refused.map (·.1.prepared), false, refused.map report, w₁⟩) :
    RefusesAll s target location w made (start (s, w)) refused := by
  have found : mountFirst s.mounter s.device (s.mountRoot.getD w.temporaryDirectory)
      (s.candidates, w) = (.error (.mountFailure s.device (refused.map report)),
        refused.map (·.1.prepared), w₁.tryRemoveDirectory target) := by
    delta mountFirst
    dsimp only
    rw [hm]
    dsimp only
    rw [probed, if_neg (by simp)]
  rw [start_of_error idle found]
  obtain ⟨files, others⟩ := point.others
  have events : made.mountEvents = w.mountEvents := by rw [others]
  have points : made.mountPoints = w.mountPoints ++ [.made target] := by rw [others]
  obtain ⟨files', points', same⟩ := World.tryRemoveDirectory_eq target w₁
  refine ⟨split, ?_, rfl, rfl, ?_, ?_, w₁, refusals, rfl, fun leads empty => ?_⟩
  · dsimp only
    rw [same, ← events, ← refusals.mountEvents]
  · simp [startCount, idle, Counted.count]
  · simp [location?, idle, Counted.resource?]
  · dsimp only
    rw [tryRemoveDirectory_of_empty leads empty]
    -- The root stands before anything is made, so the new directory is not the root.
    have below : location ≠ [] := by
      rintro rfl
      have root := point.vacant
      simp at root
    refine ⟨rfl, FileTree.entry_drop_self below, ?_⟩
    rw [refusals.mountPoints, points, List.append_assoc]
    rfl

end Start

/-- **The first start tries candidates in order, all or nothing.**  Either no directory can be made
for the mount point, and nothing is done; or a new one is made, on which the candidates are tried
one by one, and the first that can be mounted ends the start with one holder; or all are refused,
each of them once, and the start fails with all the faults in order. -/
theorem start_probes (s : MountedSource) (w : World) (unstarted : s.startCount = 0) :
    let root := s.mountRoot.getD w.temporaryDirectory
    (∃ cause, w.files.makeTemporary root stem = .error cause ∧
        start (s, w) = (.error (.io cause), s, w)) ∨
      ∃ target location made, World.MakesPoint root target location w made ∧
        ((∃ refused c rest, MountsFirst s target w made (start (s, w)) refused c rest) ∨
          ∃ refused, RefusesAll s target location w made (start (s, w)) refused) := by
  have idle : s.state = .idle := by
    cases hstate : s.state with
    | idle => rfl
    | held resource others => simp [startCount, hstate] at unstarted
  intro root
  rcases World.makeTemporary_cases root w with
    ⟨cause, hm, failed⟩ | ⟨target, location, made, hm, point⟩
  · left
    have found : mountFirst s.mounter s.device root (s.candidates, w) =
        (.error (.io cause), s.candidates, w) := by
      delta mountFirst
      dsimp only
      rw [failed]
    exact ⟨cause, hm, start_of_error idle found⟩
  · right
    refine ⟨target, location, made, point, ?_⟩
    rcases probe_cases s.mounter s.device target s.candidates made with
      ⟨refused, c, rest, w₁, w₂, split, refusals, done, probed⟩ |
        ⟨refused, w₁, split, refusals, probed⟩
    · left
      exact ⟨refused, c, rest, mountsFirst_of_probe idle point hm split refusals done probed⟩
    · right
      exact ⟨refused, refusesAll_of_probe idle point hm split refusals probed⟩

/-- On the drive the first type is refused, the second is mounted, and the third is not tried. -/
theorem start_drive_probes :
    MountBacked.drive.1.inner.startCount = 0 ∧
      ∃ target location made fault,
        World.MakesPoint "/tmp" target location MountBacked.drive.2 made ∧
        MountsFirst MountBacked.drive.1.inner target MountBacked.drive.2 made
          (start (MountBacked.drive.1.inner, MountBacked.drive.2))
          [(⟨"iso9660", ["ro"]⟩, fault)] ⟨"vfat", ["ro"]⟩ [⟨"ext3", ["ro"]⟩] := by
  refine ⟨rfl, ?_⟩
  have started : (start (MountBacked.drive.1.inner, MountBacked.drive.2)).1.toOption = some () := by
    decide +kernel
  have tries : (start (MountBacked.drive.1.inner, MountBacked.drive.2)).2.2.mountEvents.length =
      2 := by
    decide +kernel
  rcases start_probes MountBacked.drive.1.inner MountBacked.drive.2 rfl with
    ⟨cause, -, failed⟩ |
      ⟨target, location, made, point, ⟨refused, c, rest, mounted⟩ | ⟨refused, fails⟩⟩
  · rw [failed] at started
    cases started
  · -- Of the two mounts that are noted, the second one succeeded.
    rw [mounted.mountEvents_eq] at tries
    obtain ⟨⟨first, fault⟩, rfl⟩ : ∃ p, refused = [p] := by
      apply List.length_eq_one_iff.mp
      simpa [MountBacked.drive] using tries
    have candidates : [⟨"iso9660", ["ro"]⟩, ⟨"vfat", ["ro"]⟩, ⟨"ext3", ["ro"]⟩] =
      first :: c :: rest := mounted.candidates_eq
    obtain ⟨rfl, rfl, rfl⟩ : _ = first ∧ _ = c ∧ _ = rest := by
      simpa only [List.cons.injEq] using candidates
    exact ⟨target, location, made, fault, point, mounted⟩
  · rw [fails.result_eq] at started
    cases started

end MountedSource

end InstallMedia
