import InstallMedia.CommandLine.Run
import InstallMedia.Proofs.Source.Release

/-!
# What a run releases

A run finishes the source that it started once, whatever has become of the command, and gives it up
at the end.  The calls that it makes are noted by a source that traces them.

## Main definitions

* `Command.uses`: the calls that a command makes to a started source
* `Command.outcome`: the outcome of a command and a finish

## Main results

* `Command.execute_snd`, `Command.execute_traced`: what a command does to a source
* `Arguments.run_releases`: how a run goes, and what it leaves
-/

namespace InstallMedia

variable {σ α : Type} [Source α] (stdout : Sink σ)

namespace Command

/-- The calls that a command makes to a started source.  Nothing is stored from a file that cannot
be opened. -/
def uses (w : World) : Command → List Call
  | probe _ name => [.has name]
  | fetch _ name _ => [.openFile name]
  | store _ name localFile =>
    match w.files.openFile localFile with
    | .ok file => [.store name (.file file)]
    | .error _ => []

/-- A command neither starts nor finishes the source. -/
theorem ne_of_mem_uses {c : Command} {w : World} {call : Call} (h : call ∈ c.uses w) :
    call ≠ .start ∧ call ≠ .finish := by
  cases c with
  | probe address name =>
    obtain rfl := List.mem_singleton.mp h
    exact ⟨nofun, nofun⟩
  | fetch address name output =>
    obtain rfl := List.mem_singleton.mp h
    exact ⟨nofun, nofun⟩
  | store address name localFile =>
    rw [uses] at h
    split at h
    · obtain rfl := List.mem_singleton.mp h
      exact ⟨nofun, nofun⟩
    · cases h

/-- A command makes its calls, and changes at most files besides. -/
theorem execute_snd (c : Command) (out : σ) (s : α) (w : World) :
    let used := Call.run (c.uses w) (s, w)
    ∃ files : FileTree, used.2.files.KeepsDirectories files ∧
      (c.execute stdout (out, s, w)).2.2 = (used.1, { used.2 with files }) := by
  cases c with
  | probe address name => exact ⟨_, .refl _, rfl⟩
  | fetch address name output =>
    have used : Call.run ((fetch address name output).uses w) (s, w) =
      (Source.openFile name (s, w)).2 := rfl
    rw [used, execute, executeFetch]
    rcases Source.openFile name (s, w) with ⟨e | stream, s', w'⟩
    · exact ⟨_, .refl _, rfl⟩
    rcases output with - | path
    · exact ⟨_, .refl _, rfl⟩
    -- The local file is made in the tree that opening the name has left.
    dsimp only
    rcases made : w'.files.createFile path with cause | ⟨written, files⟩
    · exact ⟨_, .refl _, rfl⟩
    · have created := FileTree.createFile_keepsDirectories made
      exact ⟨_, Source.copy_fileSink_keepsDirectories created _ _, rfl⟩
  | store address name localFile =>
    rw [uses, execute, executeStore]
    cases w.files.openFile localFile with
    | error cause => exact ⟨_, .refl _, rfl⟩
    | ok file => exact ⟨_, .refl _, rfl⟩

/-- A command does the same to a source that notes its calls. -/
theorem execute_traced (c : Command) (out : σ) (t : Traced α) (w : World) :
    let executed := c.execute stdout (out, t.source, w)
    c.execute stdout (out, t, w) = (executed.1, executed.2.1,
      ⟨executed.2.2.1, t.calls ++ c.uses w⟩, executed.2.2.2) := by
  cases c with
  | probe address name => rfl
  | fetch address name output =>
    simp only [execute, executeFetch, uses, Traced.openFile_eq, Traced.noting]
    rcases Source.openFile name (t.source, w) with ⟨e | stream, s', w'⟩
    · rfl
    rcases output with - | path
    · rfl
    dsimp only
    rcases w'.files.createFile path with cause | ⟨written, files⟩
    · rfl
    · rfl
  | store address name localFile =>
    rw [execute, execute, executeStore, executeStore, uses]
    cases w.files.openFile localFile with
    | error cause => simp
    | ok file => rfl

/-- The outcome of a command and a finish: the fault of the command comes first, then that of the
finish. -/
def outcome : Except CommandFault Bool → Except SourceError Unit → Except CommandFault Bool
  | .error fault, _ => .error fault
  | .ok _, .error e => .error (.source e)
  | .ok found, .ok () => .ok found

theorem outcome_eq (result : Except CommandFault Bool) (finished : Except SourceError Unit) :
    (result.bind fun found => (finished.mapError .source).map fun _ => found) =
      outcome result finished := by
  cases result with
  | error fault => rfl
  | ok found => cases finished <;> rfl

section

variable {c : Command} {out : σ} {t : Traced α} {w : World}

/-- The trace of a run whose source was started has one start, the calls of the command, and one
finish. -/
theorem bracketed_traced_of_started {started : α × World}
    (h : Source.start (t.source, w) = (.ok (), started)) :
    let executed := c.execute stdout (out, started)
    let finished := Source.finish executed.2.2
    c.bracketed stdout (out, t, w) = (outcome executed.1 finished.1, executed.2.1,
      ⟨finished.2.1, t.calls ++ .start :: c.uses started.2 ++ [.finish]⟩, finished.2.2) := by
  have begun : Source.start (t, w) =
      (.ok (), (⟨started.1, t.calls ++ [.start]⟩ : Traced α), started.2) := by
    simp only [Traced.start_eq, Traced.noting, h]
  rw [bracketed_of_started begun, execute_traced]
  simp only [Traced.finish_eq, Traced.noting, outcome_eq, List.append_assoc, List.singleton_append]

theorem bracketed_traced_of_not_started {e : SourceError} {stopped : α × World}
    (h : Source.start (t.source, w) = (.error e, stopped)) : c.bracketed stdout (out, t, w) =
      (.error (.source e), out, ⟨stopped.1, t.calls ++ [.start]⟩, stopped.2) := by
  apply bracketed_of_not_started
  simp only [Traced.start_eq, Traced.noting, h]

/-- Noting the calls changes nothing else. -/
theorem bracketed_traced (c : Command) (out : σ) (t : Traced α) (w : World) :
    let done := c.bracketed stdout (out, t.source, w)
    ∃ calls, c.bracketed stdout (out, t, w) =
      (done.1, done.2.1, ⟨done.2.2.1, calls⟩, done.2.2.2) := by
  intro done
  cases started : Source.start (t.source, w) with
  | mk result now =>
    cases result with
    | error e =>
      refine ⟨t.calls ++ [.start], ?_⟩
      rw [bracketed_traced_of_not_started stdout started]
      simp only [done, bracketed_of_not_started started]
    | ok _ =>
      refine ⟨t.calls ++ .start :: c.uses now.2 ++ [.finish], ?_⟩
      rw [bracketed_traced_of_started stdout started]
      simp only [done, bracketed_of_started started, outcome_eq]

end

end Command

namespace Arguments

open Command (outcome)

/-- A command leaves a mount where it is. -/
theorem single_execute [InternationalNames] {own : Option Mounter} {first : World}
    {s : AnySource × World} (h : AnySource.Single own first s) (c : Command) (out : σ) :
    AnySource.Single own first (c.execute stdout (out, s)).2.2 := by
  obtain ⟨s, w⟩ := s
  obtain ⟨files, kept, executed⟩ := Command.execute_snd stdout c out s w
  have used : AnySource.Single own first (Call.run (c.uses w) (s, w)) := by
    refine Call.run_induction _ (fun call hc s hs => ?_) h
    obtain ⟨started, finished⟩ := Command.ne_of_mem_uses hc
    exact hs.perform started finished
  rw [executed]
  exact used.congr rfl kept _ _ _

/-- **A run** fails if the address names no source.  Otherwise the source is started; if that fails,
nothing else is done.  A source that was started is finished once, after the command, whose fault
comes first.  In the end the source is given up.  Then nothing is mounted and no mount point stands,
nor any directory where one was made, unless unmounting was tried by the finish and again at the
end, and failed both times. -/
theorem run_releases [InternationalNames] (a : Arguments) (out : σ) (w : World) :
    let after := a.run stdout (out, w)
    (∃ e, AnySource.create a.command.address a.options = .error e ∧
      after = (.error (.source e), out, w)) ∨
    ∃ s, AnySource.create a.command.address a.options = .ok s ∧
      let traced := a.command.bracketed stdout (out, ({ source := s } : Traced AnySource), w)
      after = (traced.1, traced.2.1, Source.abandon traced.2.2) ∧
      ((∃ e stopped, Source.start (s, w) = (.error e, stopped) ∧
          traced = (.error (.source e), out, ⟨stopped.1, [.start]⟩, stopped.2) ∧
          (w.files.IsTree → w.mounter.KeepsContract → w.CleanSince after.2.2)) ∨
        ∃ started, Source.start (s, w) = (.ok (), started) ∧
          let executed := a.command.execute stdout (out, started)
          let finished := Source.finish executed.2.2
          traced = (outcome executed.1 finished.1, executed.2.1,
            ⟨finished.2.1, .start :: a.command.uses started.2 ++ [.finish]⟩, finished.2.2) ∧
          (∀ call ∈ a.command.uses started.2, call ≠ .start ∧ call ≠ .finish) ∧
          (w.files.IsTree → w.mounter.KeepsContract →
            w.CleanSince after.2.2 ∨ ∃ target fault retry,
              finished.2.2.mountEvents =
                executed.2.2.2.mountEvents ++ [.unmount target (some fault)] ∧
              after.2.2.mountEvents =
                finished.2.2.mountEvents ++ [.unmount target (some retry)])) := by
  intro after
  cases created : AnySource.create a.command.address a.options with
  | error e =>
    refine Or.inl ⟨e, rfl, ?_⟩
    simp only [after, run, created]
  | ok s =>
    refine Or.inr ⟨s, rfl, ?_⟩
    intro traced
    -- The run is that of the source alone, which noting the calls does not change.
    have given : after = (traced.1, traced.2.1, Source.abandon traced.2.2) := by
      obtain ⟨calls, same⟩ := Command.bracketed_traced stdout a.command out { source := s } w
      simp only [after, traced, run, created, same]
      rfl
    refine ⟨given, ?_⟩
    cases started : Source.start (s, w) with
    | mk result now =>
      cases result with
      | error e =>
        have noted : traced = _ :=
          Command.bracketed_traced_of_not_started stdout (t := { source := s }) started
        refine Or.inl ⟨e, now, rfl, noted, fun isTree contract => ?_⟩
        -- Arguments name no mounter, so that of the world is used.
        have contract : (a.options.mounter.getD w.mounter).KeepsContract := contract
        obtain ⟨begun, unheld⟩ := AnySource.single_of_start contract created isTree started
        rw [given, noted]
        exact begun.abandon_unheld contract (unheld e rfl)
      | ok _ =>
        have noted : traced = _ :=
          Command.bracketed_traced_of_started stdout (t := { source := s }) started
        refine Or.inr ⟨now, rfl, noted, fun _ hc => Command.ne_of_mem_uses hc,
          fun isTree contract => ?_⟩
        have contract : (a.options.mounter.getD w.mounter).KeepsContract := contract
        obtain ⟨begun, -⟩ := AnySource.single_of_start contract created isTree started
        rw [given, noted]
        exact (single_execute stdout begun a.command out).finish_abandon contract

/-- Looks for a name on a device. -/
def probeDrive : Arguments where
  readWrite := false
  fsTypes := []
  mountRoot := none
  timeout := none
  command := .probe "dev:///dev/sr0" "boot"

/-- Where the second type can be mounted, and unmounted again, nothing is left. -/
theorem run_probeDrive :
    MountBacked.drive.2.files.IsTree ∧ MountBacked.drive.2.mounter.KeepsContract ∧
      ∃ s, AnySource.create "dev:///dev/sr0" probeDrive.options = .ok s ∧
        (probeDrive.command.bracketed Sink.collecting
          ([], ({ source := s } : Traced AnySource), MountBacked.drive.2)).2.2.1.calls =
          [.start, .has "boot", .finish] ∧
        MountBacked.drive.2.CleanSince
          (probeDrive.run Sink.collecting ([], MountBacked.drive.2)).2.2 := by
  have isTree : MountBacked.drive.2.files.IsTree := by decide
  have contract := Mounter.ofNothing_keepsContract [MountCandidate.imageType]
  have starts : ((AnySource.create "dev:///dev/sr0" probeDrive.options).toOption.map fun s =>
      (Source.start (s, MountBacked.drive.2)).1.isOk) = some true := by decide +kernel
  have ends : (probeDrive.run Sink.collecting ([], MountBacked.drive.2)).2.2.mountEvents.getLast? =
      some (.unmount "/tmp/media-000000" none) := by decide +kernel
  refine ⟨isTree, contract, ?_⟩
  rcases run_releases Sink.collecting probeDrive [] MountBacked.drive.2 with
    ⟨e, refused, -⟩ | ⟨s, created, -, ⟨e, stopped, failed, -⟩ | ⟨now, -, noted, -, left⟩⟩
  · have refused : AnySource.create "dev:///dev/sr0" probeDrive.options = .error e := refused
    rw [refused] at starts
    cases starts
  · have created : AnySource.create "dev:///dev/sr0" probeDrive.options = .ok s := created
    rw [created] at starts
    simp [Except.toOption, failed, Except.isOk, Except.toBool] at starts
  · refine ⟨s, created, ?_, ?_⟩
    · rw [noted]
      rfl
    · rcases left isTree contract with clean | ⟨target, fault, retry, -, again⟩
      · exact clean
      · rw [again] at ends
        simp at ends

end Arguments

end InstallMedia
