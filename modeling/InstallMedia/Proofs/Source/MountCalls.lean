import InstallMedia.Proofs.Source.Mounted

/-!
# What is mounted

Whatever is done with a mounted source, and whatever becomes of it, all that a mounter is ever asked
to mount is the device that the source was made for, with the options of one of its candidates.

## Main definitions

* `World.Asks`: a world from which only mounts with some property were asked for
* `World.MountsOnly`: a world from which only one device was asked for

## Main results

* `MountedSource.perform_asking`: what one call asks for
* `MountBacked.run_asking`, `MountBacked.run_mountsOnly`: what a run of calls asks for
-/

namespace InstallMedia

/-! ## Candidates -/

namespace MountCandidate

/-- A candidate is tried in the same way again. -/
@[simp] theorem prepared_prepared (c : MountCandidate) : c.prepared.prepared = c.prepared := by
  by_cases h : c.fstype = imageType ∧ !c.hasOption readOnlyOption
  · have once : c.prepared = { c with options := c.options ++ [readOnlyOption] } := if_pos h
    rw [once]
    exact if_neg (by simp [hasOption])
  · have once : c.prepared = c := if_neg h
    rw [once, once]

/-- A candidate is tried as the type that it has. -/
@[simp] theorem fstype_prepared (c : MountCandidate) : c.prepared.fstype = c.fstype := by
  unfold prepared
  split <;> rfl

/-- No option of a candidate is left out. -/
theorem mem_prepared_options {c : MountCandidate} {option : String} (h : option ∈ c.options) :
    option ∈ c.prepared.options := by
  unfold prepared
  split
  · exact List.mem_append_left _ h
  · exact h

/-- The mount by which a candidate is tried. -/
def call (device target : String) (c : MountCandidate) : MountCall :=
  ⟨device, target, c.prepared.fstype, c.prepared.options⟩

end MountCandidate

/-! ## Worlds -/

namespace World

/-- A world that was reached from `first` by mounts with the property `p`, by unmounts, and without
the end of an FTP connection. -/
structure Asks (p : MountCall → Prop) (first w : World) : Prop where
  asked : ∃ asked, w.mountEvents = first.mountEvents ++ asked ∧
    ∀ call fault, .mount call fault ∈ asked → p call
  ended : w.ended = first.ended

/-- A world that was reached from `first` by mounts of one device, and by unmounts. -/
def MountsOnly (device : String) (first w : World) : Prop :=
  ∃ asked, w.mountEvents = first.mountEvents ++ asked ∧
    ∀ call fault, .mount call fault ∈ asked → call.source = device

namespace Asks

variable {p : MountCall → Prop} {first w w' : World}

theorem refl (p : MountCall → Prop) (w : World) : Asks p w w :=
  ⟨⟨[], by simp, by simp⟩, rfl⟩

/-- Without further events nothing more is asked for. -/
theorem congr (h : Asks p first w) (same : w'.mountEvents = w.mountEvents)
    (ended : w'.ended = w.ended) : Asks p first w' := by
  obtain ⟨asked, hw, all⟩ := h.asked
  exact ⟨⟨asked, same.trans hw, all⟩, ended.trans h.ended⟩

theorem concat (h : Asks p first w) {event : MountEvent}
    (more : w'.mountEvents = w.mountEvents ++ [event]) (ended : w'.ended = w.ended)
    (he : ∀ call fault, event = .mount call fault → p call) : Asks p first w' := by
  obtain ⟨asked, hw, all⟩ := h.asked
  refine ⟨⟨asked ++ [event], by rw [more, hw, List.append_assoc], fun call fault hm => ?_⟩,
    ended.trans h.ended⟩
  rcases List.mem_append.mp hm with hm | hm
  · exact all call fault hm
  · exact he call fault (List.mem_singleton.mp hm).symm

end Asks

/-- A mount that is asked for is noted, and how it went. -/
theorem mountEvents_of_mount {own : Option Mounter} {call : MountCall} {w w' : World}
    {result : Except MountFault Unit} (h : World.mount own call w = (result, w')) :
    w'.mountEvents = w.mountEvents ++ [.mount call (faultOf result)] := by
  obtain ⟨rfl, rfl⟩ := Prod.mk.inj h
  rfl

/-- So is an unmount. -/
theorem mountEvents_of_unmount {own : Option Mounter} {target : String} {w w' : World}
    {result : Except MountFault Unit} (h : World.unmount own target w = (result, w')) :
    w'.mountEvents = w.mountEvents ++ [.unmount target (faultOf result)] := by
  obtain ⟨rfl, rfl⟩ := Prod.mk.inj h
  rfl

/-- Making a directory changes files and the list of mount points only. -/
theorem makeTemporary_snd (root stem : String) (w : World) :
    ∃ files mountPoints, (makeTemporary root stem w).2 = { w with files, mountPoints } := by
  cases hm : w.files.makeTemporary root stem with
  | error cause =>
    have failed : onFiles (·.makeTemporary root stem) w = (.error cause, w) := by
      simp [onFiles, hm]
    rw [makeTemporary, Attempt.bind_of_error failed]
    exact ⟨w.files, w.mountPoints, rfl⟩
  | ok found =>
    have done : onFiles (·.makeTemporary root stem) w =
        (.ok found.1, { w with files := found.2 }) := by
      simp [onFiles, hm]
    rw [makeTemporary, Attempt.bind_of_ok done]
    exact ⟨found.2, w.mountPoints ++ [.made found.1], rfl⟩

/-- So does taking one away. -/
theorem tryRemoveDirectory_eq (path : String) (w : World) :
    ∃ files mountPoints, tryRemoveDirectory path w = { w with files, mountPoints } := by
  unfold tryRemoveDirectory
  split
  · exact ⟨_, _, rfl⟩
  · exact ⟨w.files, w.mountPoints, rfl⟩

theorem Asks.tryRemoveDirectory {p : MountCall → Prop} {first w : World} (h : Asks p first w)
    (path : String) : Asks p first (tryRemoveDirectory path w) := by
  obtain ⟨files, mountPoints, same⟩ := tryRemoveDirectory_eq path w
  rw [same]
  exact h.congr rfl rfl

end World

open World (Asks MountsOnly)

namespace MountedSource

variable {p : MountCall → Prop} {device : String} {w₀ w : World} {candidates : List MountCandidate}

/-- Candidates that are only tried by mounts with the property `p`. -/
def TriesOnly (p : MountCall → Prop) (device : String) (candidates : List MountCandidate) : Prop :=
  ∀ c ∈ candidates, ∀ target, p (c.call device target)

/-- Every mount that is asked for tries a candidate, and the candidates are kept as they were
tried. -/
theorem probe_asks (own : Option Mounter) (h : Asks p w₀ w) (target : String)
    (may : TriesOnly p device candidates) :
    Asks p w₀ (probe own device target candidates w).world ∧
      TriesOnly p device (probe own device target candidates w).candidates := by
  induction candidates generalizing w with
  | nil => exact ⟨h, may⟩
  | cons c rest ih =>
    let call : MountCall := c.call device target
    have asked : Asks p w₀ (World.mount own call w).2 :=
      h.concat rfl rfl fun call' fault he => by
        obtain rfl : call = call' := by cases he; rfl
        exact may c List.mem_cons_self target
    -- What was tried once is tried in the same way again.
    have tried (later : List MountCandidate) (hl : TriesOnly p device later) :
        TriesOnly p device (c.prepared :: later) := by
      intro c' hc' target'
      rcases List.mem_cons.mp hc' with rfl | hc'
      · have first := may c List.mem_cons_self target'
        rwa [MountCandidate.call, ← MountCandidate.prepared_prepared] at first
      · exact hl c' hc' target'
    have mayRest : TriesOnly p device rest := fun c' hc' => may c' (List.mem_cons_of_mem _ hc')
    rw [probe]
    dsimp only
    split
    · rename_i done
      rw [show (World.mount own call w).2 = _ from congrArg Prod.snd done] at asked
      exact ⟨asked, tried rest mayRest⟩
    · rename_i failed
      rw [show (World.mount own call w).2 = _ from congrArg Prod.snd failed] at asked
      obtain ⟨later, mayLater⟩ := ih asked mayRest
      exact ⟨later, tried _ mayLater⟩

theorem mountFirst_asks (own : Option Mounter) (h : Asks p w₀ w) (root : String)
    (may : TriesOnly p device candidates) :
    Asks p w₀ (mountFirst own device root (candidates, w)).2.2 ∧
      TriesOnly p device (mountFirst own device root (candidates, w)).2.1 := by
  obtain ⟨files, mountPoints, made⟩ := World.makeTemporary_snd root stem w
  delta mountFirst
  dsimp only
  split
  · rename_i failed
    obtain rfl : _ = { w with files, mountPoints } := (congrArg Prod.snd failed).symm.trans made
    exact ⟨h.congr rfl rfl, may⟩
  · rename_i target w' hm
    obtain rfl : w' = { w with files, mountPoints } := (congrArg Prod.snd hm).symm.trans made
    have before : Asks p w₀ { w with files, mountPoints } := h.congr rfl rfl
    obtain ⟨probed, kept⟩ := probe_asks own before target may
    split
    · exact ⟨probed, kept⟩
    · exact ⟨probed.tryRemoveDirectory _, kept⟩

theorem unmount_asks (own : Option Mounter) (h : Asks p w₀ w) (target : String) :
    Asks p w₀ (unmount own (target, w)).2.2 := by
  have asked : Asks p w₀ (World.unmount own target w).2 :=
    h.concat rfl rfl fun call fault he => by cases he
  rw [unmount]
  split
  · rename_i done
    rw [done] at asked
    exact asked.tryRemoveDirectory _
  · rename_i failed
    rwa [failed] at asked

/-- Unmounting is asked for once, and nothing else is. -/
theorem unmount_mountEvents (own : Option Mounter) (target : String) (w : World) :
    (unmount own (target, w)).2.2.mountEvents =
      w.mountEvents ++ [.unmount target (faultOf (World.unmount own target w).1)] := by
  cases unmounted : World.unmount own target w with
  | mk result w' =>
    have noted := World.mountEvents_of_unmount unmounted
    rw [unmount, unmounted]
    cases result with
    | ok done =>
      obtain ⟨files, mountPoints, removed⟩ := World.tryRemoveDirectory_eq target w'
      dsimp only
      rw [removed]
      exact noted
    | error fault => exact noted

/-- What every call preserves: that only mounts with the property `p` were and will be asked for. -/
structure Asking (p : MountCall → Prop) (first s : MountedSource × World) : Prop where
  readOnly_eq : s.1.readOnly = first.1.readOnly
  may : TriesOnly p s.1.device s.1.candidates
  asks : Asks p first.2 s.2

variable {first s : MountedSource × World}

theorem start_asking (h : Asking p first s) : Asking p first (start s).2 := by
  obtain ⟨s, w⟩ := s
  obtain ⟨readOnly, may, asks⟩ := h
  rw [start]
  cases s.state with
  | idle =>
    obtain ⟨opened, kept⟩ := mountFirst_asks s.mounter asks
      (s.mountRoot.getD w.temporaryDirectory) may
    simp only [Counted.acquire]
    generalize mountFirst s.mounter s.device (s.mountRoot.getD w.temporaryDirectory)
      (s.candidates, w) = out at opened kept
    obtain ⟨result, candidates, w'⟩ := out
    cases result with
    | ok target => exact ⟨readOnly, kept, opened⟩
    | error e => exact ⟨readOnly, kept, opened⟩
  | held target others => exact ⟨readOnly, may, asks⟩

theorem finish_asking (h : Asking p first s) : Asking p first (finish s).2 := by
  obtain ⟨s, w⟩ := s
  obtain ⟨readOnly, may, asks⟩ := h
  rw [finish]
  cases s.state with
  | idle => exact ⟨readOnly, may, asks⟩
  | held target others =>
    cases others with
    | zero =>
      have closed := unmount_asks s.mounter asks target
      simp only [Counted.release]
      generalize unmount s.mounter (target, w) = out at closed
      obtain ⟨result, target', w'⟩ := out
      cases result with
      | ok done => exact ⟨readOnly, may, closed⟩
      | error e => exact ⟨readOnly, may, closed⟩
    | succ others => exact ⟨readOnly, may, asks⟩

theorem perform_asking (call : Call) (h : Asking p first s) :
    Asking p first (call.perform s).2 := by
  by_cases started : call = .start
  · rw [started, perform_start]
    exact start_asking h
  by_cases finished : call = .finish
  · rw [finished, perform_finish]
    exact finish_asking h
  obtain ⟨files, -, performed⟩ := perform_operation started finished s
  rw [performed]
  exact ⟨h.readOnly_eq, h.may, h.asks.congr rfl rfl⟩

end MountedSource

namespace MountBacked

variable {α : Type} [Source α] [MountBacked α]

/-- If the candidates of the mounted source inside are only tried by mounts with some property, all
that a run of calls asks for has it. -/
theorem run_asking {p : MountCall → Prop} (calls : List Call) (s : α × World)
    (may : MountedSource.TriesOnly p (inner s.1).device (inner s.1).candidates) :
    MountedSource.Asking p (inner s.1, s.2)
      (inner (Call.run calls s).1, (Call.run calls s).2) := by
  rw [← run_inner]
  exact Call.run_induction _ (fun call _ _ h => MountedSource.perform_asking call h)
    ⟨rfl, may, Asks.refl _ _⟩

/-- All that a run of calls asks for is the device of the mounted source inside. -/
theorem run_mountsOnly (calls : List Call) (s : α × World) :
    MountsOnly (inner s.1).device s.2 (Call.run calls s).2 :=
  (run_asking calls s fun _ _ _ => rfl).asks.asked

end MountBacked

end InstallMedia
