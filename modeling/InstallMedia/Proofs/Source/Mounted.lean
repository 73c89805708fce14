import InstallMedia.Proofs.Mount.Contract
import InstallMedia.Proofs.Source.Basic
import InstallMedia.Proofs.Source.Call
import InstallMedia.Source.Device

/-!
# The life of a mount

While a mounted source is started, exactly its location is mounted and exactly its location stands
as a mount point; otherwise nothing is mounted and nothing stands.  A mount point is made where
nothing stood in the tree of files, and when it is taken away nothing stands there again.  The same
holds of devices and exports, which have a mounted source inside.

## Main definitions

* `MountBacked`: sources that do all through a mounted source inside
* `MountedSource.IsPoint`: paths of mount points
* `MountedSource.Lives`: what every call preserves
* `MountedSource.MayAsk`: what a call may ask of a mounter

## Main results

* `MountedSource.perform_lives`: what one call does
* `MountBacked.run_lives`: what is mounted after every run, and what the next call may do
-/

namespace InstallMedia

open World (Books Relocates)

namespace MountedSource

/-- A path that is made for a mount point. -/
def IsPoint (path : String) : Prop :=
  ∃ above number, path = FilePath.join above (FileTree.temporaryName stem number)

theorem IsPoint.locationOf_ne_nil {path : String} (h : IsPoint path) (tree : FileTree) :
    tree.locationOf path ≠ [] := by
  obtain ⟨above, number, rfl⟩ := h
  rw [FileTree.location_temporary (by decide) (by decide)]
  exact List.concat_ne_nil _ _

/-! ## First start and last finish -/

section Steps

variable {own : Option Mounter} {first w : World} {mounted standing : List String}
  (contract : (own.getD first.mounter).KeepsContract)

include contract

/-- A candidate is mounted, or the mount point is as empty as it was. -/
theorem probe_books (device target : String) (candidates : List MountCandidate)
    (h : Books first w mounted standing) (vacant : w.files.IsVacant target) :
    let p := probe own device target candidates w
    (p.mounted = true ∧ Books first p.world (mounted ++ [target]) standing ∨
      p.mounted = false ∧ Books first p.world mounted standing ∧ p.world.files.IsVacant target) ∧
    p.world.mountPoints = w.mountPoints ∧
    ∃ asked, p.world.mountEvents = w.mountEvents ++ asked ∧
      ∀ event ∈ asked, ∃ call fault, event = .mount call fault := by
  induction candidates generalizing w with
  | nil => exact ⟨Or.inr ⟨rfl, h, vacant⟩, rfl, [], by simp [probe], by simp⟩
  | cons c rest ih =>
    obtain ⟨w', asked, ⟨fault, hevents⟩, points⟩ :=
      h.mount contract ⟨device, target, c.prepared.fstype, c.prepared.options⟩
    rw [probe]
    dsimp only
    rcases asked with ⟨hm, books⟩ | ⟨⟨fault', hm⟩, books, keep⟩
    · rw [hm]
      refine ⟨Or.inl ⟨rfl, books⟩, points, _, hevents, ?_⟩
      simp
    -- The mount point is as empty as before, so the next candidate finds it as this one did.
    · rw [hm]
      obtain ⟨tried, same, more, hmore, all⟩ := ih books (keep vacant)
      refine ⟨tried, same.trans points,
        .mount ⟨device, target, c.prepared.fstype, c.prepared.options⟩ fault :: more, ?_, ?_⟩
      · rw [hmore, hevents, List.append_assoc]
        rfl
      · intro event hevent
        rcases List.mem_cons.mp hevent with rfl | hevent
        · exact ⟨_, _, rfl⟩
        · exact all event hevent

/-- The first start mounts a new directory, or leaves nothing behind. -/
theorem mountFirst_books (device root : String) (candidates : List MountCandidate)
    (h : Books first w [] []) :
    ∃ candidates' w', ((∃ target, mountFirst own device root (candidates, w) =
        (.ok target, candidates', w') ∧ Books first w' [target] [target] ∧ IsPoint target ∧
          Relocates w w' none (some target)) ∨
      (∃ e, mountFirst own device root (candidates, w) = (.error e, candidates', w')) ∧
        Books first w' [] [] ∧ Relocates w w' none none) ∧
      ∃ asked, w'.mountEvents = w.mountEvents ++ asked ∧
        ∀ event ∈ asked, ∃ call fault, event = .mount call fault := by
  delta mountFirst
  dsimp only
  rcases h.makeTemporary root stem with
    ⟨cause, hm⟩ | ⟨target, made, hm, books, vacant, hevents, hpoints, none_before, point⟩
  · rw [hm]
    exact ⟨candidates, w, Or.inr ⟨⟨_, rfl⟩, h, .still rfl⟩, [], by simp, by simp⟩
  · rw [hm]
    obtain ⟨probed, points, asked, hasked, all⟩ :=
      probe_books contract device target candidates books vacant
    rw [hevents] at hasked
    rw [hpoints] at points
    dsimp only
    generalize probe own device target candidates made = p at *
    rcases probed with ⟨done, books⟩ | ⟨failed, books, vacant⟩
    -- If nothing could be mounted, the mount point can be taken away, since it is empty.
    · rw [if_pos done]
      exact ⟨p.candidates, p.world,
        Or.inl ⟨target, rfl, books, point, .made none_before points⟩, asked, hasked, all⟩
    · obtain ⟨books, same, removed, gone⟩ :=
        books.remove vacant (IsPoint.locationOf_ne_nil point _)
      rw [points, List.append_assoc] at removed
      rw [if_neg (by simp [failed])]
      refine ⟨p.candidates, p.world.tryRemoveDirectory target,
        Or.inr ⟨⟨.mountFailure device p.failures, rfl⟩, ?_, .tried none_before removed gone⟩,
        asked, by rw [same, hasked], all⟩
      simpa using books

/-- The last finish unmounts the location and takes it away, or leaves all as it was. -/
theorem unmount_books {target : String} (point : IsPoint target)
    (h : Books first w [target] [target]) :
    ∃ w', (unmount own (target, w) = (.ok (), target, w') ∧ Books first w' [] [] ∧
        Relocates w w' (some target) none ∨
      (∃ e, unmount own (target, w) = (.error e, target, w')) ∧
        Books first w' [target] [target] ∧ Relocates w w' (some target) (some target)) ∧
      ∃ fault, w'.mountEvents = w.mountEvents ++ [.unmount target fault] := by
  obtain ⟨w', asked, ⟨fault, hevents⟩, points⟩ := h.unmount contract target
  rw [unmount]
  rcases asked with ⟨hu, books, vacant⟩ | ⟨⟨fault', hu⟩, books⟩
  -- What was unmounted is empty, whatever was stored while it was mounted.
  · obtain ⟨books, same, removed, gone⟩ := books.remove vacant (point.locationOf_ne_nil _)
    rw [points] at removed
    rw [hu]
    refine ⟨_, Or.inl ⟨rfl, ?_, .removed removed gone⟩, fault, by rw [same, hevents]⟩
    simpa using books
  · rw [hu]
    exact ⟨w', Or.inr ⟨⟨_, rfl⟩, books, .still points⟩, fault, hevents⟩

end Steps

/-! ## Calls -/

/-- What a call may ask of a mounter when some targets are mounted: only the first start mounts, and
only the last finish unmounts, only what is mounted. -/
def MayAsk (s : MountedSource) (mounted : List String) (call : Call) : MountEvent → Prop
  | .mount _ _ => call = .start ∧ s.startCount = 0
  | .unmount target _ => call = .finish ∧ s.startCount = 1 ∧ target ∈ mounted

/-- What every call preserves: just the location is mounted, and just the location stands. -/
structure Lives (own : Option Mounter) (first : World) (s : MountedSource × World) : Prop where
  mounter_eq : s.1.mounter = own
  books : Books first s.2 s.1.location?.toList s.1.location?.toList
  isPoint : ∀ location, s.1.location? = some location → IsPoint location

/-- What one call does: it asks only what it may, mount points are made and taken away with the
location, and if it fails, the source is as it was. -/
structure Steps (own : Option Mounter) (first : World) (call : Call) (s : MountedSource × World)
    (result : Except SourceError Unit) (s' : MountedSource × World) : Prop where
  lives : Lives own first s'
  relocates : Relocates s.2 s'.2 s.1.location? s'.1.location?
  asks : ∃ asked, s'.2.mountEvents = s.2.mountEvents ++ asked ∧
    ∀ event ∈ asked, MayAsk s.1 s.1.location?.toList call event
  fails : ∀ e, result = .error e → s'.1.state = s.1.state

section Calls

variable {own : Option Mounter} {first : World} {s : MountedSource × World}

/-- A call that asks nothing and changes at most files. -/
theorem Steps.quiet (h : Lives own first s) (call : Call) (result : Except SourceError Unit)
    {files : FileTree} (isTree : files.IsTree) :
    Steps own first call s result (s.1, { s.2 with files }) :=
  ⟨⟨h.mounter_eq, h.books.withFiles isTree, h.isPoint⟩, .still rfl, ⟨[], by simp, by simp⟩,
    fun _ _ => rfl⟩

/-- A source that has not been started lives. -/
theorem Lives.new (fresh : s.1.state = .idle) (isTree : s.2.files.IsTree) :
    Lives s.1.mounter s.2 s := by
  have unheld : s.1.location? = none := by
    rw [location?, fresh]
    rfl
  refine ⟨rfl, ?_, fun location isHeld => ?_⟩
  · rw [unheld]
    exact Books.refl isTree
  · rw [unheld] at isHeld
    cases isHeld

theorem start_steps (contract : (own.getD first.mounter).KeepsContract)
    (h : Lives own first s) : Steps own first .start s (start s).1 (start s).2 := by
  obtain ⟨s, w⟩ := s
  obtain ⟨rfl, books, isPoint⟩ := h
  rw [start]
  cases hstate : s.state with
  | idle =>
    have idle : s.location? = none := by rw [location?, hstate]; rfl
    have count : s.startCount = 0 := by rw [startCount, hstate]; rfl
    rw [idle] at books
    obtain ⟨candidates, w', mounted, asked, hasked, all⟩ := mountFirst_books contract s.device
      (s.mountRoot.getD w.temporaryDirectory) s.candidates books
    have asks : ∀ event ∈ asked, MayAsk s s.location?.toList .start event := by
      intro event hevent
      obtain ⟨call, fault, rfl⟩ := all event hevent
      exact ⟨rfl, count⟩
    simp only [Counted.acquire]
    rcases mounted with ⟨target, hm, books, point, relocates⟩ | ⟨⟨e, hm⟩, books, relocates⟩
    · rw [hm]
      refine ⟨⟨rfl, books, fun location isHeld => ?_⟩, ?_, ⟨asked, hasked, asks⟩,
        fun e he => by simp [Except.map] at he⟩
      · obtain rfl : target = location := Option.some.inj isHeld
        exact point
      · rw [idle]
        exact relocates
    · rw [hm]
      refine ⟨⟨rfl, books, nofun⟩, ?_, ⟨asked, hasked, asks⟩, fun _ _ => hstate.symm⟩
      rw [idle]
      exact relocates
  | held location others =>
    have held : s.location? = some location := by rw [location?, hstate]; rfl
    rw [held] at books
    refine ⟨⟨rfl, books, fun _ isHeld => isPoint _ (held.trans isHeld)⟩, ?_,
      ⟨[], by simp [Counted.acquire], by simp⟩,
      fun e he => by simp [Counted.acquire, Except.map] at he⟩
    rw [held]
    exact .still rfl

theorem finish_steps (contract : (own.getD first.mounter).KeepsContract)
    (h : Lives own first s) : Steps own first .finish s (finish s).1 (finish s).2 := by
  obtain ⟨s, w⟩ := s
  obtain ⟨rfl, books, isPoint⟩ := h
  rw [finish]
  cases hstate : s.state with
  | idle =>
    have idle : s.location? = none := by rw [location?, hstate]; rfl
    rw [idle] at books
    refine ⟨⟨rfl, books, nofun⟩, ?_, ⟨[], by simp [Counted.release], by simp⟩,
      fun _ _ => hstate.symm⟩
    rw [idle]
    exact .still rfl
  | held location others =>
    have held : s.location? = some location := by rw [location?, hstate]; rfl
    rw [held] at books
    have kept : ∀ other, some location = some other → IsPoint other :=
      fun _ isHeld => isPoint _ (held.trans isHeld)
    cases others with
    | zero =>
      obtain ⟨w', unmounted, fault, hasked⟩ := unmount_books contract (isPoint _ held) books
      have asks : MayAsk s s.location?.toList .finish (.unmount location fault) :=
        ⟨rfl, by rw [startCount, hstate]; rfl, by simp [held]⟩
      simp only [Counted.release]
      rcases unmounted with ⟨hu, books, relocates⟩ | ⟨⟨e, hu⟩, books, relocates⟩
      · rw [hu]
        refine ⟨⟨rfl, books, nofun⟩, ?_, ⟨_, hasked, by simpa using asks⟩,
          fun e he => by simp [Except.map] at he⟩
        rw [held]
        exact relocates
      · rw [hu]
        refine ⟨⟨rfl, books, kept⟩, ?_, ⟨_, hasked, by simpa using asks⟩, fun _ _ => hstate.symm⟩
        rw [held]
        exact relocates
    | succ others =>
      refine ⟨⟨rfl, books, kept⟩, ?_, ⟨[], by simp [Counted.release], by simp⟩,
        fun e he => by simp [Counted.release, Except.map] at he⟩
      rw [held]
      exact .still rfl

theorem openFile_apply (name : String) (s : MountedSource) (w : World) :
    Source.openFile name (s, w) =
      match s.locate name with
      | .error e => (.error e, s, w)
      | .ok location => Source.openIn location name (s, w) := rfl

theorem store_apply (name : String) (stream : Stream) (s : MountedSource) (w : World) :
    Source.store name (stream, s, w) =
      if s.readOnly then (.error (.precondition (.readOnly name)), stream, s, w)
      else
        match s.locate name with
        | .error e => (.error e, stream, s, w)
        | .ok location => Source.storeIn location name (stream, s, w) :=
  Source.whenWritable_apply s.readOnly name _ (stream, s, w)

/-- Opening a name leaves all as it was. -/
theorem openFile_snd (name : String) (s : MountedSource × World) :
    (Source.openFile name s).2 = s := by
  rw [openFile_apply]
  split
  · rfl
  · exact Source.openIn_snd _ name s

/-- Looking for a name leaves all as it was. -/
theorem has_snd (name : String) (s : MountedSource × World) : (Source.has name s).2 = s :=
  openFile_snd name s

/-- Storing a name changes at most files. -/
theorem store_snd (name : String) (stream : Stream) (s : MountedSource × World) :
    ∃ files : FileTree, s.2.files.KeepsDirectories files ∧
      (Source.store name (stream, s)).2.2 = (s.1, { s.2 with files }) := by
  obtain ⟨s, w⟩ := s
  rw [store_apply]
  split
  · exact ⟨w.files, .refl w.files, rfl⟩
  · cases s.locate name with
    | error e => exact ⟨w.files, .refl w.files, rfl⟩
    | ok location => exact Source.storeIn_snd location name stream s w

theorem perform_start (s : MountedSource × World) : Call.perform .start s = start s := rfl

theorem perform_finish (s : MountedSource × World) : Call.perform .finish s = finish s := rfl

/-- A call between start and finish changes at most files. -/
theorem perform_operation {call : Call} (started : call ≠ .start) (finished : call ≠ .finish)
    (s : MountedSource × World) : ∃ files : FileTree, s.2.files.KeepsDirectories files ∧
      (call.perform s).2 = (s.1, { s.2 with files }) := by
  cases call with
  | start => contradiction
  | finish => contradiction
  | openFile name => exact ⟨s.2.files, .refl _, openFile_snd name s⟩
  | has name => exact ⟨s.2.files, .refl _, has_snd name s⟩
  | store name stream => exact store_snd name stream s

theorem perform_steps (contract : (own.getD first.mounter).KeepsContract)
    (h : Lives own first s) (call : Call) :
    Steps own first call s (call.perform s).1 (call.perform s).2 := by
  by_cases started : call = .start
  · rw [started]
    exact start_steps contract h
  by_cases finished : call = .finish
  · rw [finished]
    exact finish_steps contract h
  obtain ⟨files, kept, performed⟩ := perform_operation started finished s
  rw [performed]
  exact Steps.quiet h _ _ (kept.isTree h.books.isTree)

theorem perform_lives (contract : (own.getD first.mounter).KeepsContract) (calls : List Call)
    (h : Lives own first s) : Lives own first (Call.run calls s) :=
  Call.run_induction (Lives own first) (fun call _ _ h => (perform_steps contract h call).lives) h

end Calls

end MountedSource

/-! ## Sources with a mounted source inside -/

theorem DeviceSource.perform_eq (call : Call) (s : DeviceSource) (w : World) : call.perform (s, w) =
    ((call.perform (s.inner, w)).1, setInner (call.perform (s.inner, w)).2.1 s,
      (call.perform (s.inner, w)).2.2) := by
  cases call with
  | start => rfl
  | finish => rfl
  | openFile name => rfl
  | has name => rfl
  | store name stream => rfl

theorem DeviceSource.wraps (s : DeviceSource) : Source.Wraps (DeviceSource.setInner · s) where
  perform_eq call m w := by
    rw [perform_eq]
    rfl
  abandon_eq _ _ := rfl

theorem NfsSource.perform_eq (call : Call) (s : NfsSource) (w : World) : call.perform (s, w) =
    ((call.perform (s.inner, w)).1, setInner (call.perform (s.inner, w)).2.1 s,
      (call.perform (s.inner, w)).2.2) := by
  cases call with
  | start => rfl
  | finish => rfl
  | openFile name => rfl
  | has name => rfl
  | store name stream => rfl

theorem NfsSource.wraps (s : NfsSource) : Source.Wraps (NfsSource.setInner · s) where
  perform_eq call m w := by
    rw [perform_eq]
    rfl
  abandon_eq _ _ := rfl

/-- A source that does all it does through a mounted source inside. -/
class MountBacked (α : Type) [Source α] where
  /-- The mounted source. -/
  inner : α → MountedSource
  /-- A call does the same to the mounted source, and gives the same. -/
  perform_inner : ∀ (call : Call) (s : α × World), call.perform (inner s.1, s.2) =
    ((call.perform s).1, inner (call.perform s).2.1, (call.perform s).2.2)

namespace MountBacked

instance : MountBacked MountedSource where
  inner s := s
  perform_inner _ _ := rfl

instance : MountBacked DeviceSource where
  inner := DeviceSource.inner
  perform_inner call s := by
    obtain ⟨s, w⟩ := s
    rw [DeviceSource.perform_eq]
    rfl

instance : MountBacked NfsSource where
  inner := NfsSource.inner
  perform_inner call s := by
    obtain ⟨s, w⟩ := s
    rw [NfsSource.perform_eq]
    rfl

variable {α : Type} [Source α] [MountBacked α]

theorem run_inner (calls : List Call) (s : α × World) :
    Call.run calls (inner s.1, s.2) = (inner (Call.run calls s).1, (Call.run calls s).2) := by
  induction calls generalizing s with
  | nil => rfl
  | cons call calls ih => rw [Call.run_cons, Call.run_cons, perform_inner, ih]

open MountedSource (MayAsk) in
/-- What is mounted after every run of calls on a new source, and what one call more may do.  Mount
points are made and taken away with the location, in the ledger and in the tree of files. -/
theorem run_lives {s : α × World} (fresh : (inner s.1).state = .idle) (isTree : s.2.files.IsTree)
    (contract : ((inner s.1).mounter.getD s.2.mounter).KeepsContract) (calls : List Call)
    (call : Call) :
    let now := Call.run calls s
    let after := call.perform now
    ((inner now.1).location?.isSome ↔ 0 < (inner now.1).startCount) ∧
      World.mountedSince s.2 now.2 = (inner now.1).location?.toList ∧
      World.standingSince s.2 now.2 = (inner now.1).location?.toList ∧
      (∃ asked, after.2.2.mountEvents = now.2.mountEvents ++ asked ∧
        ∀ event ∈ asked, MayAsk (inner now.1) (World.mountedSince s.2 now.2) call event) ∧
      (∀ e, after.1 = .error e → (inner after.2.1).state = (inner now.1).state) ∧
      Relocates now.2 after.2.2 (inner now.1).location? (inner after.2.1).location? := by
  have lives := MountedSource.perform_lives contract calls
    (MountedSource.Lives.new (s := (inner s.1, s.2)) fresh isTree)
  have steps := MountedSource.perform_steps contract lives call
  rw [run_inner] at lives steps
  rw [perform_inner] at steps
  intro now after
  refine ⟨?_, lives.books.mountedSince_eq, lives.books.standingSince_eq, ?_, steps.fails,
    steps.relocates⟩
  · rw [MountedSource.location?, MountedSource.startCount]
    cases (inner now.1).state <;> simp [Counted.resource?]
  · rw [lives.books.mountedSince_eq]
    exact steps.asks

/-- A device in a world with a directory for mount points, where all but images can be mounted. -/
def drive : DeviceSource × World :=
  (.ofAddress "dev:///dev/sr0" true none,
    { files := { entries := [(["tmp"], .directory)] }
      mounter := .ofNothing [MountCandidate.imageType] })

/-- The second type is mounted, at the first mount point. -/
theorem run_drive_lives :
    (inner drive.1).state = .idle ∧ drive.2.files.IsTree ∧
      ((inner drive.1).mounter.getD drive.2.mounter).KeepsContract ∧
      World.mountedSince drive.2 (Call.run [.start, .has "boot", .start] drive).2 =
        ["/tmp/media-000000"] := by
  have isTree : drive.2.files.IsTree := by decide
  have contract := Mounter.ofNothing_keepsContract [MountCandidate.imageType]
  refine ⟨rfl, isTree, contract, ?_⟩
  rw [(run_lives (s := drive) rfl isTree contract [.start, .has "boot", .start] .finish).2.1]
  decide +kernel

end MountBacked

end InstallMedia
