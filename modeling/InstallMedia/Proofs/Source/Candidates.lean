import InstallMedia.Proofs.Source.MountCalls
import Mathlib.Data.List.Forall2

/-!
# Candidates over runs

The candidates of a mounted source are kept as they were tried.  Over a whole run of calls this
changes no more than that an image that was not only read is only read from then on: candidates
stay as many, in the same order and of the same types, and what is mounted is what they say.

## Main definitions

* `MountCandidate.Becomes`: what a candidate may have become
* `MountCandidate.TriedBy`: a mount by which a candidate is tried
* `MountEvent.calls`: the mounts that were asked for
* `MountedSource.Tries`: candidates that were tried in order, and what has become of them

## Main results

* `MountedSource.probe_tries`: what trying candidates makes of them
* `MountedSource.perform_tries`: what one call makes of them
* `MountBacked.run_candidates`: what a run of calls makes of them
-/

namespace InstallMedia

/-! ## Candidates -/

namespace MountCandidate

/-- A candidate and what may have become of it: at most, an image that was not only read is. -/
structure Becomes (c c' : MountCandidate) : Prop where
  fstype_eq : c'.fstype = c.fstype
  options : c'.options = c.options ∨
    c.fstype = imageType ∧ readOnlyOption ∉ c.options ∧
      c'.options = c.options ++ [readOnlyOption]

/-- A mount by which a candidate is tried: an image is only read, and all else has just the options
of the candidate. -/
structure TriedBy (c : MountCandidate) (call : MountCall) : Prop where
  becomes : c.Becomes ⟨call.fstype, call.options⟩
  image : call.fstype = imageType → readOnlyOption ∈ call.options
  other : call.fstype ≠ imageType → call.options = c.options

variable {c c' : MountCandidate}

theorem Becomes.refl (c : MountCandidate) : c.Becomes c := ⟨rfl, Or.inl rfl⟩

theorem prepared_of_image (image : c.fstype = imageType) (writable : readOnlyOption ∉ c.options) :
    c.prepared = { c with options := c.options ++ [readOnlyOption] } := by
  rw [prepared, if_pos]
  simpa [hasOption] using And.intro image writable

theorem prepared_of_readOnly (readOnly : readOnlyOption ∈ c.options) : c.prepared = c := by
  rw [prepared, if_neg]
  simp [hasOption, readOnly]

theorem prepared_of_other (other : c.fstype ≠ imageType) : c.prepared = c := by
  rw [prepared, if_neg]
  simp [other]

/-- A candidate that is tried becomes no more than it may. -/
theorem Becomes.prepared (h : c.Becomes c') : c.Becomes c'.prepared := by
  by_cases readOnly : readOnlyOption ∈ c'.options
  · rwa [prepared_of_readOnly readOnly]
  by_cases image : c'.fstype = imageType
  · -- An image that is not only read yet is as it was at first.
    have same : c'.options = c.options := by
      refine h.options.resolve_right fun changed => readOnly ?_
      rw [changed.2.2]
      exact List.mem_append_right _ List.mem_cons_self
    rw [prepared_of_image image readOnly]
    rw [same] at readOnly ⊢
    exact ⟨h.fstype_eq, Or.inr ⟨h.fstype_eq ▸ image, readOnly, rfl⟩⟩
  · rwa [prepared_of_other image]

/-- Whatever has become of a candidate, it is tried as it was at first. -/
theorem Becomes.triedBy (h : c.Becomes c') (device target : String) :
    c.TriedBy (c'.call device target) := by
  refine ⟨h.prepared, fun image => ?_, fun other => ?_⟩
  · change c'.prepared.fstype = imageType at image
    change readOnlyOption ∈ c'.prepared.options
    rw [fstype_prepared] at image
    by_cases readOnly : readOnlyOption ∈ c'.options
    · exact mem_prepared_options readOnly
    · rw [prepared_of_image image readOnly]
      exact List.mem_append_right _ List.mem_cons_self
  · change c'.prepared.fstype ≠ imageType at other
    change c'.prepared.options = c.options
    rw [fstype_prepared] at other
    rw [prepared_of_other other]
    exact h.options.resolve_right fun changed => other (h.fstype_eq.trans changed.1)

end MountCandidate

/-- The mounts that were asked for, in order. -/
def MountEvent.calls (events : List MountEvent) : List MountCall :=
  events.filterMap fun
    | .mount call _ => some call
    | .unmount _ _ => none

namespace MountedSource

/-! ## Trying candidates -/

/-- From one world to another, the first of some candidates were tried in order, each of them by one
mount, and all of them became `candidates`. -/
structure Tries (initial candidates : List MountCandidate) (w w' : World) : Prop where
  becomes : List.Forall₂ MountCandidate.Becomes initial candidates
  asked : ∃ asked, w'.mountEvents = w.mountEvents ++ asked ∧
    ∃ tried, tried <+: initial ∧
      List.Forall₂ MountCandidate.TriedBy tried (MountEvent.calls asked)

variable {initial candidates : List MountCandidate} {w w' w'' : World}

/-- Without a mount that is asked for, nothing is tried. -/
theorem Tries.quiet (h : List.Forall₂ MountCandidate.Becomes initial candidates)
    {asked : List MountEvent} (same : w'.mountEvents = w.mountEvents ++ asked)
    (none_asked : MountEvent.calls asked = []) : Tries initial candidates w w' := by
  refine ⟨h, asked, same, [], List.nil_prefix, ?_⟩
  rw [none_asked]
  exact .nil

theorem Tries.still (h : List.Forall₂ MountCandidate.Becomes initial candidates)
    (same : w'.mountEvents = w.mountEvents) : Tries initial candidates w w' :=
  .quiet h (same.trans (List.append_nil _).symm) rfl

/-- What is done before and after, without mounts and unmounts, does not matter. -/
theorem Tries.congr {first last : World} (h : Tries initial candidates w w')
    (before : w.mountEvents = first.mountEvents) (after : last.mountEvents = w'.mountEvents) :
    Tries initial candidates first last := by
  obtain ⟨becomes, asked, events, tried⟩ := h
  exact ⟨becomes, asked, by rw [after, events, before], tried⟩

theorem probe_tries (own : Option Mounter) (device target : String)
    (h : List.Forall₂ MountCandidate.Becomes initial candidates) (w : World) :
    Tries initial (probe own device target candidates w).candidates w
      (probe own device target candidates w).world := by
  -- Each candidate is tried in the world that the refusal of the one before it has left.
  induction h generalizing w with
  | nil => exact .still .nil rfl
  | @cons c c' initial candidates becomes rest ih =>
    have tried : c.TriedBy (c'.call device target) := becomes.triedBy device target
    rw [probe]
    dsimp only
    cases hm : World.mount own (c'.call device target) w with
    | mk result w₁ =>
      have noted := World.mountEvents_of_mount hm
      have attempt : World.mount own
        ⟨device, target, c'.prepared.fstype, c'.prepared.options⟩ w = (result, w₁) := hm
      rw [attempt]
      cases result with
      | ok _ =>
        refine ⟨.cons becomes.prepared rest, _, noted, [c], ?_, .cons tried .nil⟩
        exact ⟨initial, rfl⟩
      | error fault =>
        obtain ⟨later, asked, events, more, shorter, all⟩ := ih w₁
        refine ⟨.cons becomes.prepared later, .mount (c'.call device target) (some fault) :: asked,
          ?_, c :: more, ?_, .cons tried all⟩
        · rw [events, noted, List.append_assoc]
          rfl
        · exact List.cons_prefix_cons.mpr ⟨rfl, shorter⟩

theorem mountFirst_tries (own : Option Mounter) (device root : String)
    (h : List.Forall₂ MountCandidate.Becomes initial candidates) (w : World) :
    Tries initial (mountFirst own device root (candidates, w)).2.1 w
      (mountFirst own device root (candidates, w)).2.2 := by
  obtain ⟨files, mountPoints, made⟩ := World.makeTemporary_snd root stem w
  delta mountFirst
  dsimp only
  split
  · rename_i failed
    obtain rfl : _ = { w with files, mountPoints } := (congrArg Prod.snd failed).symm.trans made
    exact .still h rfl
  · rename_i target w' hm
    obtain rfl : w' = { w with files, mountPoints } := (congrArg Prod.snd hm).symm.trans made
    have probed := probe_tries own device target h { w with files, mountPoints }
    split
    · exact probed.congr rfl rfl
    -- Taking the mount point away again asks for nothing.
    · obtain ⟨files', mountPoints', removed⟩ := World.tryRemoveDirectory_eq target
        (probe own device target candidates { w with files, mountPoints }).world
      exact probed.congr rfl (by rw [removed])

/-! ## Calls -/

variable {s : MountedSource × World}

theorem start_tries (h : List.Forall₂ MountCandidate.Becomes initial s.1.candidates) :
    Tries initial (start s).2.1.candidates s.2 (start s).2.2 := by
  obtain ⟨s, w⟩ := s
  rw [start]
  cases s.state with
  | idle =>
    have opened := mountFirst_tries s.mounter s.device (s.mountRoot.getD w.temporaryDirectory) h w
    simp only [Counted.acquire]
    generalize mountFirst s.mounter s.device (s.mountRoot.getD w.temporaryDirectory)
      (s.candidates, w) = out at opened
    obtain ⟨result, candidates, w'⟩ := out
    cases result with
    | ok target => exact opened
    | error e => exact opened
  | held target others => exact .still h rfl

/-- A finish leaves the candidates as they are. -/
theorem finish_tries (h : List.Forall₂ MountCandidate.Becomes initial s.1.candidates) :
    Tries initial (finish s).2.1.candidates s.2 (finish s).2.2 := by
  obtain ⟨s, w⟩ := s
  rw [finish]
  cases s.state with
  | idle => exact .still h rfl
  | held target others =>
    cases others with
    | succ others => exact .still h rfl
    | zero =>
      have noted := unmount_mountEvents s.mounter target w
      simp only [Counted.release]
      generalize unmount s.mounter (target, w) = out at noted
      obtain ⟨result, target', w'⟩ := out
      cases result with
      | ok done => exact .quiet h noted rfl
      | error e => exact .quiet h noted rfl

theorem perform_tries (h : List.Forall₂ MountCandidate.Becomes initial s.1.candidates)
    (call : Call) :
    Tries initial (call.perform s).2.1.candidates s.2 (call.perform s).2.2 := by
  by_cases started : call = .start
  · rw [started, perform_start]
    exact start_tries h
  by_cases finished : call = .finish
  · rw [finished, perform_finish]
    exact finish_tries h
  obtain ⟨files, -, performed⟩ := perform_operation started finished s
  rw [performed]
  exact .still h rfl

end MountedSource

namespace MountBacked

variable {α : Type} [Source α] [MountBacked α]

/-- **Candidates over a run of calls.**  Whatever the mounter does, the candidates stay as many, in
the same order and of the same types, and each of them has its first options, or those and then the
one of reading, if it is an image that did not have it.  Every mount that is asked for tries one of
the first candidates, an image only for reading and all else with just its first options; and one
call tries them in order from the first one on, each by one mount. -/
theorem run_candidates (s : α × World) (calls : List Call) (call : Call) :
    let initial := (inner s.1).candidates
    let now := Call.run calls s
    let after := call.perform now
    List.Forall₂ MountCandidate.Becomes initial (inner now.1).candidates ∧
      (∃ asked, now.2.mountEvents = s.2.mountEvents ++ asked ∧
        ∀ m fault, .mount m fault ∈ asked → ∃ c ∈ initial, c.TriedBy m) ∧
      ∃ asked, after.2.2.mountEvents = now.2.mountEvents ++ asked ∧
        ∃ tried, tried <+: initial ∧
          List.Forall₂ MountCandidate.TriedBy tried (MountEvent.calls asked) := by
  intro initial now after
  have refl : List.Forall₂ MountCandidate.Becomes initial initial :=
    List.forall₂_same.mpr fun c _ => .refl c
  have becomes : List.Forall₂ MountCandidate.Becomes initial (inner now.1).candidates := by
    have kept : List.Forall₂ MountCandidate.Becomes initial
        (Call.run calls (inner s.1, s.2)).1.candidates :=
      Call.run_induction
        (fun s : MountedSource × World =>
          List.Forall₂ MountCandidate.Becomes initial s.1.candidates)
        (fun call _ _ h => (MountedSource.perform_tries h call).becomes) refl
    rwa [run_inner] at kept
  refine ⟨becomes, ?_, ?_⟩
  · have asking := run_asking (p := fun m => ∃ c ∈ initial, c.TriedBy m) calls s
      fun c hc target => ⟨c, hc, (MountCandidate.Becomes.refl c).triedBy _ target⟩
    exact asking.asks.asked
  · have tries := MountedSource.perform_tries (s := (inner now.1, now.2)) becomes call
    rw [perform_inner] at tries
    exact tries.asked

/-- An image that is to be written is tried for reading, and is so again. -/
example :
    let s : MountedSource :=
      { device := "/dev/sr0"
        candidates := [⟨"iso9660", ["rw"]⟩, ⟨"ext3", ["rw"]⟩]
        readOnly := false }
    (Call.run [.start, .finish, .start] (s, drive.2)).1.candidates =
      [⟨"iso9660", ["rw", "ro"]⟩, ⟨"ext3", ["rw"]⟩] := by
  decide +kernel

end MountBacked

end InstallMedia
