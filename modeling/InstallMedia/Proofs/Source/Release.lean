import InstallMedia.Proofs.Source.Any
import InstallMedia.Proofs.Source.Frame
import InstallMedia.Proofs.Source.GivingUp

/-!
# Giving mounts back

A source that is started at most once at a time gives back what it mounted when it is finished, and
again when it is given up.  What it mounted stays only if unmounting it was tried and failed.

## Main definitions

* `World.OnlyHolds`: no directory is left of the mount points, but the one that is held
* `World.GivesBack`: what giving back a mount comes to
* `World.CleanSince`: nothing is left of what was mounted
* `AnySource.Single`: a source that holds at most the mount of one start

## Main results

* `AnySource.Single.start`, `AnySource.Single.perform`: such a source stays one
* `AnySource.Single.finish_abandon`: what is left of one that is finished and given up
-/

namespace InstallMedia

namespace World

/-- Of the mount points that were made since a first world only one is held, or none is, and then no
directory stands at any of them. -/
def OnlyHolds (first w : World) (held : Option String) : Prop :=
  ∃ points, w.mountPoints = first.mountPoints ++ points ∧ ∀ path, .made path ∈ points →
    held = some path ∨ held = none ∧ w.files.isDirectoryAt (w.files.locationOf path) = false

/-- What giving back a mount comes to: nothing is mounted and nothing stands, unless unmounting was
tried and failed. -/
structure GivesBack (first w : World) (held left : Option String) (w' : World) : Prop where
  books : Books first w' left.toList left.toList
  onlyHolds : OnlyHolds first w' left
  failed : ∀ target, left = some target → held = some target ∧
    ∃ fault, w'.mountEvents = w.mountEvents ++ [.unmount target (some fault)]

/-- Every mount since a first world was unmounted, and every mount point taken away: no directory
stands where one was made. -/
def CleanSince (first w : World) : Prop :=
  mountedSince first w = [] ∧ standingSince first w = [] ∧
    ∀ path, .made path ∈ w.mountPoints.drop first.mountPoints.length →
      w.files.isDirectoryAt (w.files.locationOf path) = false

variable {first w w' : World} {held left : Option String}

theorem Books.cleanSince (h : Books first w [] []) (only : OnlyHolds first w none) :
    first.CleanSince w := by
  obtain ⟨points, hpoints, only⟩ := only
  refine ⟨h.mountedSince_eq, h.standingSince_eq, fun path hpath => ?_⟩
  rw [hpoints, List.drop_left] at hpath
  rcases only path hpath with ⟨⟨⟩⟩ | ⟨-, gone⟩
  exact gone

theorem OnlyHolds.refl (w : World) (held : Option String) : OnlyHolds w w held :=
  ⟨[], by simp, by simp⟩

/-- Files that are made or written in between do not matter. -/
theorem OnlyHolds.congr (h : OnlyHolds first w held) (noted : w'.mountPoints = w.mountPoints)
    (kept : w.files.KeepsDirectories w'.files) : OnlyHolds first w' held := by
  obtain ⟨points, hpoints, only⟩ := h
  refine ⟨points, noted.trans hpoints, fun path hpath => ?_⟩
  rw [FileTree.locationOf, kept.workingDirectory, ← FileTree.locationOf, kept.isDirectoryAt]
  exact only path hpath

/-- Nothing is left but what a first start holds. -/
theorem Relocates.onlyHolds (h : Relocates w w' none left) : OnlyHolds w w' left := by
  cases h with
  | still noted => exact ⟨[], by simpa using noted, by simp⟩
  | made _ noted => exact ⟨_, noted, by simp⟩
  | tried _ noted gone => exact ⟨_, noted, by simp [FileTree.isDirectoryAt, gone]⟩

/-- The mount point that was held is kept, or taken away as the last one. -/
theorem OnlyHolds.relocates {target : String} (h : OnlyHolds first w (some target))
    (moved : Relocates w w' (some target) left) : OnlyHolds first w' left := by
  obtain ⟨points, hpoints, only⟩ := h
  have held : ∀ path, .made path ∈ points → target = path := by
    intro path hpath
    rcases only path hpath with held | ⟨⟨⟩, -⟩
    exact Option.some.inj held
  cases moved with
  | still noted =>
    exact ⟨points, noted.trans hpoints, fun path hpath => Or.inl (by rw [held path hpath])⟩
  | removed noted gone =>
    refine ⟨points ++ [.removed target], by rw [noted, hpoints, List.append_assoc],
      fun path hpath => Or.inr ⟨rfl, ?_⟩⟩
    obtain rfl := held path (by simpa using hpath)
    rw [FileTree.isDirectoryAt, gone]
    rfl

end World

open World (Books GivesBack OnlyHolds)

namespace MountedSource

variable {own : Option Mounter} {first : World} {s : MountedSource × World}

/-- When unmounting fails, the mounter has failed, and the mount point is kept. -/
theorem unmount_error {target target' : String} {w w' : World} {e : SourceError}
    (h : unmount own (target, w) = (.error e, target', w')) : target' = target ∧
      ∃ fault, w'.mountEvents = w.mountEvents ++ [.unmount target (some fault)] := by
  rw [unmount, World.unmount] at h
  cases asked : (own.getD w.mounter).unmount w.mountEvents target w.files with
  | mk result files =>
    rw [asked] at h
    cases result with
    | ok _ => cases h
    | error fault =>
      cases h
      exact ⟨rfl, fault, rfl⟩

theorem startCount_eq_zero {s : MountedSource} (idle : s.location? = none) : s.startCount = 0 := by
  rw [location?] at idle
  rw [startCount]
  cases hstate : s.state with
  | idle => rfl
  | held location others =>
    rw [hstate] at idle
    cases idle

theorem start_startCount (s : MountedSource × World) :
    (Call.perform .start s).2.1.startCount ≤ s.1.startCount + 1 := by
  obtain ⟨s, w⟩ := s
  rw [perform_start, start, startCount, startCount]
  cases s.state with
  | idle =>
    simp only [Counted.acquire]
    split
    · exact Nat.le_refl 1
    · exact Nat.zero_le 1
  | held location others =>
    simp only [Counted.acquire, Counted.count_held]
    omega

theorem finish_startCount (s : MountedSource × World) :
    (Call.perform .finish s).2.1.startCount ≤ s.1.startCount := by
  obtain ⟨s, w⟩ := s
  rw [perform_finish, finish, startCount, startCount]
  cases s.state with
  | idle => exact Nat.le_refl 0
  | held location others =>
    cases others with
    | zero =>
      simp only [Counted.release]
      split
      · exact Nat.zero_le 1
      · exact Nat.le_refl 1
    | succ others => exact Nat.le_succ _

/-- A finish takes away the mount point that is held, or leaves all as it is. -/
theorem onlyHolds_finish (only : OnlyHolds first s.2 s.1.location?)
    (moved : World.Relocates s.2 (finish s).2.2 s.1.location? (finish s).2.1.location?) :
    OnlyHolds first (finish s).2.2 (finish s).2.1.location? := by
  obtain ⟨s, w⟩ := s
  cases hstate : s.state with
  | idle =>
    have idle : (finish (s, w)).2 = (s, w) := by
      rw [finish, hstate]
      simp only [Counted.release, ← hstate]
    rw [idle]
    exact only
  | held location others =>
    have held : s.location? = some location := by rw [location?, hstate]; rfl
    rw [held] at only moved
    exact only.relocates moved

/-- A finish of a source that was started at most once gives back what was mounted. -/
theorem finish_givesBack (contract : (own.getD first.mounter).KeepsContract)
    (h : Lives own first s) (once : s.1.startCount ≤ 1)
    (only : OnlyHolds first s.2 s.1.location?) :
    GivesBack first s.2 s.1.location? (Call.perform .finish s).2.1.location?
      (Call.perform .finish s).2.2 := by
  have steps := finish_steps contract h
  rw [perform_finish]
  refine ⟨steps.lives.books, onlyHolds_finish only steps.relocates, fun target left => ?_⟩
  obtain ⟨s, w⟩ := s
  rw [finish, location?] at left
  rw [startCount] at once
  rw [finish, location?]
  cases hstate : s.state with
  | idle =>
    rw [hstate] at left
    cases left
  | held location others =>
    -- The source was started once, so that this finish is the last one and unmounts.
    rw [hstate] at left once
    obtain rfl : others = 0 := by simpa using once
    simp only [Counted.release] at left ⊢
    cases unmounted : unmount s.mounter (location, w) with
    | mk result rest =>
      obtain ⟨location', w'⟩ := rest
      rw [unmounted] at left
      cases result with
      | ok _ => cases left
      | error e =>
        obtain ⟨rfl, asked⟩ := unmount_error unmounted
        obtain rfl : location' = target := Option.some.inj left
        exact ⟨rfl, asked⟩

/-- Giving up a source that was started at most once is one finish more. -/
theorem abandon_eq_finish (once : s.1.startCount ≤ 1) :
    Source.abandon s = (Call.perform .finish s).2.2 := by
  obtain ⟨s, w⟩ := s
  rw [perform_finish]
  cases hstate : s.state with
  | idle =>
    rw [abandon_idle hstate, finish, hstate]
    rfl
  | held location others =>
    rw [startCount, hstate] at once
    obtain rfl : others = 0 := by simpa using once
    rw [abandon_held hstate, ← hstate]

end MountedSource

namespace AnySource

variable {first : World} {s : AnySource}

/-! ## Kinds of sources -/

/-- The mount point, while one is mounted. -/
def location? (s : AnySource) : Option String := s.mounted?.bind MountedSource.location?

/-- A call to a source that mounts nothing asks for no mount, and makes no mount point. -/
theorem perform_unmounted [InternationalNames] (h : s.mounted? = none) (call : Call) (w : World) :
    ∃ (s' : AnySource) (files : FileTree) (requests : List HttpRequest)
      (dialled : List (String × Nat)) (ended : List Connection),
      s'.mounted? = none ∧ w.files.KeepsDirectories files ∧
      (call.perform (s, w)).2 = (s', { w with files, requests, dialled, ended }) := by
  cases s with
  | nfs s => cases h
  | device s => cases h
  | http s =>
    obtain ⟨requests, performed⟩ := HttpSource.perform_frame call s w
    refine ⟨.http s, w.files, requests, w.dialled, w.ended, rfl, .refl _, ?_⟩
    rw [wraps_http.perform_eq, performed]
  | ftp s =>
    obtain ⟨session, dialled, ended, performed⟩ := FtpSource.perform_frame call (s, w)
    refine ⟨.ftp { s with session }, w.files, w.requests, dialled, ended, rfl, .refl _, ?_⟩
    rw [wraps_ftp.perform_eq, performed]
  | file s =>
    obtain ⟨files, kept, performed⟩ := FileSource.perform_frame call s w
    refine ⟨.file s, files, w.requests, w.dialled, w.ended, rfl, kept, ?_⟩
    rw [wraps_file.perform_eq, performed]

/-- Giving up such a source changes at most what is known of connections. -/
theorem abandon_unmounted [InternationalNames] (h : s.mounted? = none) (w : World) :
    ∃ ended, Source.abandon (s, w) = { w with ended } := by
  cases s with
  | nfs s => cases h
  | device s => cases h
  | http s => exact ⟨w.ended, rfl⟩
  | ftp s =>
    -- A session that is still open is ended.
    cases held : s.session with
    | idle =>
      refine ⟨w.ended, (wraps_ftp.abandon_eq s w).trans ?_⟩
      simp only [Source.abandon, held]
    | held c others =>
      refine ⟨w.ended ++ [c], (wraps_ftp.abandon_eq s w).trans ?_⟩
      simp only [Source.abandon, held]
      rfl
  | file s => exact ⟨w.ended, rfl⟩

/-- A call between start and finish leaves the mounted source inside as it is, asks for no mount and
makes no mount point. -/
theorem perform_operation [InternationalNames] {call : Call} (started : call ≠ .start)
    (finished : call ≠ .finish) (s : AnySource) (w : World) :
    ∃ (s' : AnySource) (files : FileTree) (requests : List HttpRequest)
      (dialled : List (String × Nat)) (ended : List Connection),
      s'.mounted? = s.mounted? ∧ w.files.KeepsDirectories files ∧
      (call.perform (s, w)).2 = (s', { w with files, requests, dialled, ended }) := by
  cases inside : s.mounted? with
  | none => exact perform_unmounted inside call w
  | some m =>
    obtain ⟨wrap, wraps, mounted, rfl⟩ := exists_wraps inside
    obtain ⟨files, kept, performed⟩ := MountedSource.perform_operation started finished (m, w)
    refine ⟨wrap m, files, w.requests, w.dialled, w.ended, mounted m, kept, ?_⟩
    rw [wraps.perform_eq, performed]

/-! ## One start and one finish -/

/-- A source that holds at most the mount of one start: just its mount is there. -/
structure Single (own : Option Mounter) (first : World) (s : AnySource × World) : Prop where
  books : Books first s.2 s.1.location?.toList s.1.location?.toList
  mounter_eq : ∀ m, s.1.mounted? = some m → m.mounter = own
  once : ∀ m, s.1.mounted? = some m → m.startCount ≤ 1
  isPoint : ∀ location, s.1.location? = some location → MountedSource.IsPoint location
  onlyHolds : OnlyHolds first s.2 s.1.location?

variable {own : Option Mounter} {s : AnySource × World}

theorem location?_of_mounted {s : AnySource} {m : MountedSource} (h : s.mounted? = some m) :
    s.location? = m.location? := by
  rw [location?, h]
  rfl

theorem location?_of_unmounted {s : AnySource} (h : s.mounted? = none) : s.location? = none := by
  rw [location?, h]
  rfl

theorem Single.of_mounted {wrap : MountedSource → AnySource}
    (mounted : ∀ m, (wrap m).mounted? = some m) {inner : MountedSource × World}
    (lives : MountedSource.Lives own first inner) (once : inner.1.startCount ≤ 1)
    (only : OnlyHolds first inner.2 inner.1.location?) :
    Single own first (wrap inner.1, inner.2) := by
  have located : (wrap inner.1).location? = inner.1.location? :=
    location?_of_mounted (mounted inner.1)
  refine ⟨?_, fun m hm => ?_, fun m hm => ?_, ?_, ?_⟩
  · rw [located]
    exact lives.books
  · obtain rfl : inner.1 = m := Option.some.inj ((mounted _).symm.trans hm)
    exact lives.mounter_eq
  · obtain rfl : inner.1 = m := Option.some.inj ((mounted _).symm.trans hm)
    exact once
  · rw [located]
    exact lives.isPoint
  · rw [located]
    exact only

/-- A source that was just made holds nothing. -/
theorem single_of_create [InternationalNames] {address : String} {options : SourceOptions}
    {s : AnySource} (h : create address options = .ok s) {w : World} (isTree : w.files.IsTree) :
    Single options.mounter w (s, w) ∧ s.location? = none := by
  obtain ⟨known, -, made⟩ := bind_eq_ok_iff.mp h
  -- Devices and exports have no mounter of their own but that of the options.
  have configured : ∀ m, s.mounted? = some m → m.mounter = options.mounter ∧ m.state = .idle := by
    intro m hm
    cases known with
    | nfs =>
      obtain rfl := Except.ok.inj made
      obtain rfl := Option.some.inj hm
      exact ⟨Option.or_none, rfl⟩
    | dev =>
      obtain rfl := Except.ok.inj made
      obtain rfl := Option.some.inj hm
      exact ⟨Option.or_none, rfl⟩
    | http =>
      obtain ⟨site, -, rfl⟩ := map_eq_ok_iff.mp made
      cases hm
    | https =>
      obtain ⟨site, -, rfl⟩ := map_eq_ok_iff.mp made
      cases hm
    | ftp =>
      obtain ⟨site, -, rfl⟩ := map_eq_ok_iff.mp made
      cases hm
    | file =>
      obtain ⟨files, -, rfl⟩ := map_eq_ok_iff.mp made
      cases hm
  have unheld : s.location? = none := by
    cases inside : s.mounted? with
    | none => exact location?_of_unmounted inside
    | some m =>
      rw [location?_of_mounted inside, MountedSource.location?, (configured m inside).2]
      rfl
  refine ⟨⟨?_, fun m hm => (configured m hm).1, fun m hm => ?_, ?_, .refl w _⟩, unheld⟩
  · rw [unheld]
    exact Books.refl isTree
  · rw [MountedSource.startCount, (configured m hm).2]
    exact Nat.zero_le 1
  · intro location isHeld
    rw [unheld] at isHeld
    cases isHeld

theorem Single.lives (h : Single own first s) {m : MountedSource} (hm : s.1.mounted? = some m) :
    MountedSource.Lives own first (m, s.2) := by
  have located : s.1.location? = m.location? := location?_of_mounted hm
  obtain ⟨books, mounter, -, isPoint, -⟩ := h
  rw [located] at books isPoint
  exact ⟨mounter m hm, books, isPoint⟩

/-- Files that are made or written, and what is known of requests and connections, do not matter. -/
theorem Single.congr (h : Single own first s) {s' : AnySource} (inside : s'.mounted? = s.1.mounted?)
    {files : FileTree} (kept : s.2.files.KeepsDirectories files) (requests : List HttpRequest)
    (dialled : List (String × Nat)) (ended : List Connection) :
    Single own first (s', { s.2 with files, requests, dialled, ended }) := by
  have located : s.1.location? = s'.location? := by rw [location?, location?, inside]
  obtain ⟨books, mounter, once, isPoint, only⟩ := h
  rw [← inside] at mounter once
  rw [located] at books isPoint only
  exact ⟨⟨kept.isTree books.isTree, books.mounter_eq, books.mounted_eq, books.standing_eq⟩, mounter,
    once, isPoint, only.congr rfl kept⟩

/-- A call between start and finish leaves the mount where it is. -/
theorem Single.perform [InternationalNames] (h : Single own first s) {call : Call}
    (started : call ≠ .start) (finished : call ≠ .finish) :
    Single own first (call.perform s).2 := by
  obtain ⟨s', files, requests, dialled, ended, inside, kept, performed⟩ :=
    perform_operation started finished s.1 s.2
  rw [performed]
  exact h.congr inside kept requests dialled ended

/-- The first start of a source mounts, or leaves nothing behind. -/
theorem Single.start [InternationalNames] {s : AnySource} {w : World}
    (contract : (own.getD w.mounter).KeepsContract) (h : Single own w (s, w))
    (idle : s.location? = none) :
    Single own w (Source.start (s, w)).2 ∧
      ∀ e, (Source.start (s, w)).1 = .error e → (Source.start (s, w)).2.1.location? = none := by
  cases inside : s.mounted? with
  | none =>
    obtain ⟨s', files, requests, dialled, ended, unmounted, kept, performed⟩ :=
      perform_unmounted inside .start w
    have started : (Source.start (s, w)).2 = _ := performed
    rw [started]
    exact ⟨h.congr (unmounted.trans inside.symm) kept requests dialled ended,
      fun _ _ => location?_of_unmounted unmounted⟩
  | some m =>
    rw [location?_of_mounted inside] at idle
    have lives : MountedSource.Lives own w (m, w) := h.lives inside
    have steps := MountedSource.perform_steps contract lives .start
    have count := MountedSource.start_startCount (m, w)
    have moved := steps.relocates
    rw [MountedSource.startCount_eq_zero idle] at count
    rw [idle] at moved
    obtain ⟨wrap, wraps, mounted, rfl⟩ := exists_wraps inside
    have started : Source.start (wrap m, w) = _ := wraps.perform_eq .start m w
    rw [started]
    refine ⟨.of_mounted mounted steps.lives count moved.onlyHolds, fun e failed => ?_⟩
    have kept := steps.fails e failed
    rw [location?_of_mounted (mounted _), MountedSource.location?, kept]
    exact idle

section Contract

variable (contract : (own.getD first.mounter).KeepsContract)

include contract

/-- A finish of the mounted source inside gives the mount back. -/
theorem Single.finish_inner (h : Single own first s) {m : MountedSource}
    (hm : s.1.mounted? = some m) :
    GivesBack first s.2 m.location? (Call.perform .finish (m, s.2)).2.1.location?
      (Call.perform .finish (m, s.2)).2.2 := by
  have only := h.onlyHolds
  rw [location?_of_mounted hm] at only
  exact MountedSource.finish_givesBack contract (h.lives hm) (h.once m hm) only

/-- A finish gives the mount back. -/
theorem Single.finish [InternationalNames] (h : Single own first s) :
    Single own first (Source.finish s).2 ∧
    World.GivesBack first s.2 s.1.location? (Source.finish s).2.1.location?
      (Source.finish s).2.2 := by
  obtain ⟨s, w⟩ := s
  cases inside : s.mounted? with
  | none =>
    obtain ⟨s', files, requests, dialled, ended, unmounted, kept, performed⟩ :=
      perform_unmounted inside .finish w
    have finished : (Source.finish (s, w)).2 = _ := performed
    have single := h.congr (unmounted.trans inside.symm) kept requests dialled ended
    rw [finished]
    refine ⟨single, single.books, single.onlyHolds, fun target left => ?_⟩
    rw [location?_of_unmounted unmounted] at left
    cases left
  | some m =>
    have givesBack := h.finish_inner contract inside
    have steps := MountedSource.perform_steps contract (h.lives inside) .finish
    have count := (MountedSource.finish_startCount (m, w)).trans (h.once m inside)
    obtain ⟨wrap, wraps, mounted, rfl⟩ := exists_wraps inside
    have finished : Source.finish (wrap m, w) = _ := wraps.perform_eq .finish m w
    rw [finished, location?_of_mounted inside, location?_of_mounted (mounted _)]
    exact ⟨.of_mounted mounted steps.lives count givesBack.onlyHolds, givesBack⟩

/-- Giving up the source gives the mount back. -/
theorem Single.abandon [InternationalNames] (h : Single own first s) :
    ∃ left, World.GivesBack first s.2 s.1.location? left (Source.abandon s) := by
  obtain ⟨s, w⟩ := s
  cases inside : s.mounted? with
  | none =>
    obtain ⟨ended, given⟩ := abandon_unmounted inside w
    have single := h.congr rfl (.refl w.files) w.requests w.dialled ended
    rw [given]
    refine ⟨s.location?, single.books, single.onlyHolds, fun target held => ?_⟩
    rw [location?_of_unmounted inside] at held
    cases held
  | some m =>
    have once := h.once m inside
    have givesBack := h.finish_inner contract inside
    obtain ⟨wrap, wraps, mounted, rfl⟩ := exists_wraps inside
    rw [wraps.abandon_eq, MountedSource.abandon_eq_finish once, location?_of_mounted inside]
    exact ⟨_, givesBack⟩

/-- A source that holds nothing leaves nothing when it is given up. -/
theorem Single.abandon_unheld [InternationalNames] (h : Single own first s)
    (unheld : s.1.location? = none) :
    first.CleanSince (Source.abandon s) := by
  obtain ⟨left, books, only, failed⟩ := h.abandon contract
  cases left with
  | none => exact books.cleanSince only
  | some target =>
    obtain ⟨held, -⟩ := failed target rfl
    rw [unheld] at held
    cases held

/-- A source that is finished and given up leaves nothing, unless unmounting failed both times. -/
theorem Single.finish_abandon [InternationalNames] (h : Single own first s) :
    let finished := (Source.finish s).2
    let after := Source.abandon finished
    first.CleanSince after ∨ ∃ target fault retry,
      finished.2.mountEvents = s.2.mountEvents ++ [.unmount target (some fault)] ∧
      after.mountEvents = finished.2.mountEvents ++ [.unmount target (some retry)] := by
  intro finished after
  obtain ⟨single, -, -, kept⟩ := h.finish contract
  obtain ⟨left, books, only, failed⟩ := single.abandon contract
  cases left with
  | none => exact Or.inl (books.cleanSince only)
  -- What is left was not unmounted when the source was given up, nor by the finish before.
  | some target =>
    obtain ⟨held, retry, again⟩ := failed target rfl
    obtain ⟨-, fault, once⟩ := kept target held
    exact Or.inr ⟨target, fault, retry, once, again⟩

end Contract

/-- A source that was just made can be started. -/
theorem single_of_start [InternationalNames] {address : String} {options : SourceOptions}
    {s : AnySource} {w : World} (contract : (options.mounter.getD w.mounter).KeepsContract)
    (created : create address options = .ok s) (isTree : w.files.IsTree)
    {result : Except SourceError Unit} {now : AnySource × World}
    (started : Source.start (s, w) = (result, now)) :
    Single options.mounter w now ∧ ∀ e, result = .error e → now.1.location? = none := by
  obtain ⟨single, unheld⟩ := single_of_create created isTree
  have begun := Single.start contract single unheld
  rwa [started] at begun

end AnySource

end InstallMedia
