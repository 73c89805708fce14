import InstallMedia.Proofs.Source.Probing

/-!
# Giving up what was started

A mounted source that is given up is finished as long as it holds its mount and no finish fails.
However often it was started, this comes to one unmount of its location, after which the mount point
is taken away; if the unmount fails, all is left as it is.

## Main definitions

* `MountedSource.Finishes`: finishing as often as it takes, in so many rounds
* `MountedSource.Accounts`: what is mounted since a first world is the location
* `World.TakenAway`, `World.LeftInPlace`: what giving up leaves of a mount

## Main results

* `MountedSource.finishAll_held`: every finish but the last one only counts down
* `MountedSource.perform_accounts`: what every call preserves, whatever the mounter does
* `MountedSource.run_abandon`: what giving up comes to after any run of calls
-/

namespace InstallMedia

namespace World

/-- What is left after the location was unmounted: nothing is mounted, and the mount point is taken
away if it was left empty. -/
structure TakenAway (first : World) (location : String) (left after : World) : Prop where
  mounted_eq : mountedSince first after = []
  after_eq : after = left.tryRemoveDirectory location
  removed : left.files.IsVacant location →
    ∃ place, left.files.find location = .ok (.present place .directory) ∧
      after = { left with
        files := left.files.drop place
        mountPoints := left.mountPoints ++ [.removed location] }

/-- What is left after the location could not be unmounted: it is mounted still, and nothing more is
done. -/
structure LeftInPlace (first : World) (location : String) (now left after : World) : Prop where
  mounted_eq : mountedSince first after = [location]
  after_eq : after = left
  mountPoints_eq : after.mountPoints = now.mountPoints

end World

namespace MountedSource

variable {s : MountedSource} {location : String} {w : World}

/-! ## Finishing as often as it takes -/

/-- Finishing a source as long as something is held and no finish fails, in so many rounds.  No
bound is set. -/
inductive Finishes : Nat → MountedSource × World → MountedSource × World → Prop
  | nothing {now : MountedSource × World} (unheld : now.1.state.isHeld = false) :
    Finishes 0 now now
  | stuck {now last : MountedSource × World} {e : SourceError}
      (isHeld : now.1.state.isHeld = true) (failed : finish now = (.error e, last)) :
    Finishes 1 now last
  | again {rounds : Nat} {now next last : MountedSource × World}
      (isHeld : now.1.state.isHeld = true) (done : finish now = (.ok (), next))
      (more : Finishes rounds next last) : Finishes (rounds + 1) now last

/-- The rounds and their end are determined by the beginning. -/
theorem Finishes.unique {rounds rounds' : Nat} {now last last' : MountedSource × World}
    (h : Finishes rounds now last) (h' : Finishes rounds' now last') :
    rounds' = rounds ∧ last' = last := by
  induction h generalizing rounds' with
  | nothing unheld =>
    cases h' with
    | nothing => exact ⟨rfl, rfl⟩
    | stuck isHeld => simp [unheld] at isHeld
    | again isHeld => simp [unheld] at isHeld
  | stuck isHeld failed =>
    cases h' with
    | nothing unheld => simp [unheld] at isHeld
    | stuck _ failed' =>
      obtain ⟨-, rfl⟩ := Prod.mk.inj (failed.symm.trans failed')
      exact ⟨rfl, rfl⟩
    | again _ done => cases failed.symm.trans done
  | again isHeld done more ih =>
    cases h' with
    | nothing unheld => simp [unheld] at isHeld
    | stuck _ failed => cases done.symm.trans failed
    | again _ done' more' =>
      obtain ⟨-, rfl⟩ := Prod.mk.inj (done.symm.trans done')
      obtain ⟨rfl, rfl⟩ := ih more'
      exact ⟨rfl, rfl⟩

theorem finish_nested {others : Nat} (nested : s.state = .held location (others + 1)) :
    finish (s, w) = (.ok (), { s with state := .held location others }, w) := by
  rw [finish, nested]
  rfl

/-- The last finish unmounts the location, and takes it away if that was done. -/
theorem finish_last (last : s.state = .held location 0) :
    finish (s, w) = match World.unmount s.mounter location w with
      | (.ok _, left) => (.ok (), { s with state := .idle }, left.tryRemoveDirectory location)
      | (.error fault, left) => (.error (.mount fault), s, left) := by
  rw [finish, last]
  simp only [Counted.release, unmount]
  rcases World.unmount s.mounter location w with ⟨_ | _, left⟩
  · simp only [Except.map, ← last]
  · rfl

/-- Every finish but the last one only counts down, so that after as many rounds as there were
starts the source has been finished for the last time. -/
theorem finishAll_held (others : Nat) (isHeld : s.state = .held location others) (w : World) :
    finishAll (others + 1) (s, w) = (finish ({ s with state := .held location 0 }, w)).2 ∧
      Finishes (others + 1) (s, w) (finishAll (others + 1) (s, w)) := by
  have here : (s, w).1.state.isHeld = true := by
    rw [isHeld]
    rfl
  -- Each round but the last leaves the same source with one start fewer.
  induction others generalizing s with
  | zero =>
    have same : ({ s with state := .held location 0 } : MountedSource) = s := by rw [← isHeld]
    rw [same, finishAll]
    have finished := finish_last isHeld (w := w)
    cases unmounted : World.unmount s.mounter location w with
    | mk outcome left =>
      rw [unmounted] at finished
      cases outcome with
      | ok _ =>
        rw [finished]
        exact ⟨rfl, .again here finished (.nothing rfl)⟩
      | error fault =>
        rw [finished]
        exact ⟨rfl, .stuck here finished⟩
  | succ others ih =>
    have finished := finish_nested isHeld (w := w)
    obtain ⟨ends, rounds⟩ := @ih { s with state := .held location others } rfl rfl
    have next : finishAll (others + 1 + 1) (s, w) =
        finishAll (others + 1) ({ s with state := .held location others }, w) := by
      rw [finishAll, finished]
      rfl
    rw [next]
    exact ⟨ends, .again here finished rounds⟩

/-! ## What is mounted -/

/-- What is mounted since a first world is the location, and nothing else. -/
def Accounts (first : World) (s : MountedSource × World) : Prop :=
  ∃ events, s.2.mountEvents = first.mountEvents ++ events ∧
    MountEvent.mounted events = s.1.location?.toList

variable {first : World} {now : MountedSource × World}

theorem Accounts.mountedSince_eq (h : Accounts first now) :
    World.mountedSince first now.2 = now.1.location?.toList := by
  obtain ⟨events, hevents, mounted⟩ := h
  rw [World.mountedSince, hevents, List.drop_left, mounted]

/-- Events that settle the location. -/
theorem Accounts.append (h : Accounts first now) {next : MountedSource × World}
    {asked : List MountEvent} (events : next.2.mountEvents = now.2.mountEvents ++ asked)
    (settled : asked.foldl MountEvent.settle now.1.location?.toList = next.1.location?.toList) :
    Accounts first next := by
  obtain ⟨before, hbefore, mounted⟩ := h
  refine ⟨before ++ asked, ?_, ?_⟩
  · rw [events, hbefore, List.append_assoc]
  · rw [MountEvent.mounted, List.foldl_append, ← settled, ← mounted]
    rfl

theorem Accounts.still (h : Accounts first now) {next : MountedSource × World}
    (events : next.2.mountEvents = now.2.mountEvents)
    (location : next.1.location? = now.1.location?) : Accounts first next := by
  refine h.append (events.trans (List.append_nil _).symm) ?_
  rw [location]
  rfl

/-- Mounts that are refused mount nothing. -/
theorem settle_refusals (device target : String) (refused : List (MountCandidate × MountFault))
    (targets : List String) :
    (refused.map (refusal device target)).foldl MountEvent.settle targets = targets := by
  induction refused with
  | nil => rfl
  | cons r refused ih => exact ih

theorem probe_settles (own : Option Mounter) (device target : String)
    (candidates : List MountCandidate) (w : World) :
    ∃ asked, (probe own device target candidates w).world.mountEvents = w.mountEvents ++ asked ∧
      asked.foldl MountEvent.settle [] =
        if (probe own device target candidates w).mounted then [target] else [] := by
  rcases probe_cases own device target candidates w with
    ⟨refused, c, rest, w₁, w₂, -, refusals, done, probed⟩ | ⟨refused, w₁, -, refusals, probed⟩
  · rw [probed]
    refine ⟨refused.map (refusal device target) ++ [.mount (c.call device target) none], ?_, ?_⟩
    · rw [World.mountEvents_of_mount done, refusals.mountEvents, List.append_assoc]
      rfl
    · rw [List.foldl_append, settle_refusals]
      rfl
  · rw [probed]
    exact ⟨_, refusals.mountEvents, settle_refusals device target refused []⟩

/-- The first start mounts its location, or nothing. -/
theorem mountFirst_settles (own : Option Mounter) (device root : String)
    (candidates : List MountCandidate) (w : World) :
    ∃ asked,
      (mountFirst own device root (candidates, w)).2.2.mountEvents = w.mountEvents ++ asked ∧
      asked.foldl MountEvent.settle [] =
        (mountFirst own device root (candidates, w)).1.toOption.toList := by
  obtain ⟨files, mountPoints, made⟩ := World.makeTemporary_snd root stem w
  delta mountFirst
  dsimp only
  split
  · rename_i failed
    obtain rfl : _ = { w with files, mountPoints } := (congrArg Prod.snd failed).symm.trans made
    exact ⟨[], (List.append_nil _).symm, rfl⟩
  · rename_i target w' hm
    obtain rfl : w' = { w with files, mountPoints } := (congrArg Prod.snd hm).symm.trans made
    obtain ⟨asked, events, settled⟩ :=
      probe_settles own device target candidates { w with files, mountPoints }
    split
    · rename_i mounted
      rw [if_pos mounted] at settled
      exact ⟨asked, events, settled⟩
    -- If nothing was mounted, only the mount point is taken away again.
    · rename_i refused
      obtain ⟨files', mountPoints', removed⟩ := World.tryRemoveDirectory_eq target
        (probe own device target candidates { w with files, mountPoints }).world
      rw [if_neg refused] at settled
      exact ⟨asked, by rw [removed, events], settled⟩

theorem start_accounts (h : Accounts first now) : Accounts first (start now).2 := by
  obtain ⟨s, w⟩ := now
  rw [start]
  cases hstate : s.state with
  | idle =>
    have unheld : s.location? = none := by rw [location?, hstate]; rfl
    obtain ⟨asked, events, settled⟩ := mountFirst_settles s.mounter s.device
      (s.mountRoot.getD w.temporaryDirectory) s.candidates w
    simp only [Counted.acquire]
    generalize mountFirst s.mounter s.device (s.mountRoot.getD w.temporaryDirectory)
      (s.candidates, w) = out at events settled
    obtain ⟨result, candidates, w'⟩ := out
    cases result with
    | ok target => exact h.append events (by rw [unheld]; exact settled)
    | error e => exact h.append events (by rw [unheld]; exact settled)
  | held location others =>
    have isHeld : s.location? = some location := by rw [location?, hstate]; rfl
    exact h.still rfl isHeld.symm

theorem finish_accounts (h : Accounts first now) : Accounts first (finish now).2 := by
  obtain ⟨s, w⟩ := now
  cases hstate : s.state with
  | idle =>
    have unheld : s.location? = none := by rw [location?, hstate]; rfl
    rw [finish, hstate]
    exact h.still rfl unheld.symm
  | held location others =>
    have isHeld : s.location? = some location := by rw [location?, hstate]; rfl
    cases others with
    | succ others =>
      rw [finish_nested hstate]
      exact h.still rfl isHeld.symm
    | zero =>
      rw [finish_last hstate]
      cases unmounted : World.unmount s.mounter location w with
      | mk outcome left =>
        have events := World.mountEvents_of_unmount unmounted
        cases outcome with
        | ok _ =>
          obtain ⟨files, mountPoints, removed⟩ := World.tryRemoveDirectory_eq location left
          have gone : (left.tryRemoveDirectory location).mountEvents = left.mountEvents := by
            rw [removed]
          refine h.append (gone.trans events) ?_
          rw [isHeld]
          simp [MountEvent.settle, faultOf, location?, Counted.resource?]
        | error fault =>
          refine h.append events ?_
          rw [isHeld]
          rfl

/-- What every call preserves, whatever the mounter does. -/
theorem perform_accounts (h : Accounts first now) (call : Call) :
    Accounts first (call.perform now).2 := by
  by_cases started : call = .start
  · rw [started, perform_start]
    exact start_accounts h
  by_cases finished : call = .finish
  · rw [finished, perform_finish]
    exact finish_accounts h
  obtain ⟨files, -, performed⟩ := perform_operation started finished now
  rw [performed]
  exact h.still rfl rfl

theorem run_accounts (fresh : now.1.state = .idle) (calls : List Call) :
    Accounts now.2 (Call.run calls now) := by
  refine Call.run_induction (Accounts now.2) (fun call _ _ h => perform_accounts h call) ?_
  refine ⟨[], ?_, ?_⟩
  · exact (List.append_nil _).symm
  · rw [location?, fresh]
    rfl

/-! ## Giving up -/

/-- A source that holds nothing is given up as it is. -/
theorem abandon_idle (idle : s.state = .idle) : Source.abandon (s, w) = w := by
  change (finishAll s.startCount (s, w)).2 = w
  rw [startCount, idle]
  rfl

/-- However often a source was started, to give it up is to finish it for the last time. -/
theorem abandon_held {others : Nat} (isHeld : s.state = .held location others) :
    Source.abandon (s, w) = (finish ({ s with state := .held location 0 }, w)).2.2 := by
  change (finishAll s.startCount (s, w)).2 = _
  rw [startCount, isHeld, Counted.count_held, (finishAll_held others isHeld w).1]

/-- Finishing as often as it takes ends after as many rounds as the source was started. -/
theorem finishes_abandon (s : MountedSource) (w : World) :
    ∃ last, Finishes s.startCount (s, w) (last, Source.abandon (s, w)) := by
  cases hstate : s.state with
  | idle =>
    rw [abandon_idle hstate, startCount, hstate]
    refine ⟨s, .nothing ?_⟩
    rw [hstate]
    rfl
  | held location others =>
    have rounds := (finishAll_held others hstate w).2
    refine ⟨(finishAll (others + 1) (s, w)).1, ?_⟩
    change Finishes s.startCount (s, w) (_, (finishAll s.startCount (s, w)).2)
    rwa [startCount, hstate]

/-- Whether or not the location can be unmounted, this is tried once and decides all. -/
theorem abandon_unmount (accounts : Accounts first (s, w)) {others : Nat}
    (isHeld : s.state = .held location others) {outcome : Except MountFault Unit} {left : World}
    (unmounted : World.unmount s.mounter location w = (outcome, left)) :
    (Source.abandon (s, w)).mountEvents = w.mountEvents ++ [.unmount location (faultOf outcome)] ∧
      (outcome = .ok () → World.TakenAway first location left (Source.abandon (s, w))) ∧
      (∀ fault, outcome = .error fault →
        World.LeftInPlace first location w left (Source.abandon (s, w))) := by
  -- The starts before the last one have no part in what is mounted.
  have before : Accounts first ({ s with state := .held location 0 }, w) := by
    have located : s.location? = some location := by rw [location?, isHeld]; rfl
    exact accounts.still rfl located.symm
  have after := (finish_accounts before).mountedSince_eq
  have noted := World.mountEvents_of_unmount unmounted
  have finished := finish_last (s := { s with state := .held location 0 }) rfl (w := w)
  rw [abandon_held isHeld]
  cases outcome with
  | ok _ =>
    rw [show World.unmount s.mounter location w = _ from unmounted] at finished
    dsimp only at finished
    rw [finished] at after ⊢
    obtain ⟨files, mountPoints, removed⟩ := World.tryRemoveDirectory_eq location left
    refine ⟨?_, fun _ => ⟨after, rfl, fun vacant => ?_⟩, fun _ failed => ?_⟩
    · rw [removed]
      exact noted
    · obtain ⟨place, found, empty⟩ := vacant
      exact ⟨place, found, tryRemoveDirectory_of_empty found empty⟩
    · cases failed
  | error fault =>
    rw [show World.unmount s.mounter location w = _ from unmounted] at finished
    dsimp only at finished
    rw [finished] at after ⊢
    refine ⟨noted, fun done => ?_, fun _ _ => ⟨after, rfl, ?_⟩⟩
    · cases done
    · obtain ⟨-, rfl⟩ := Prod.mk.inj unmounted
      rfl

/-- Mount points stand exactly where something is mounted, if the mounter keeps its contract. -/
theorem Lives.abandon {own : Option Mounter} (contract : (own.getD first.mounter).KeepsContract)
    (lives : Lives own first (s, w)) :
    World.standingSince first (Source.abandon (s, w)) =
      World.mountedSince first (Source.abandon (s, w)) := by
  cases hstate : s.state with
  | idle =>
    rw [abandon_idle hstate, lives.books.standingSince_eq, lives.books.mountedSince_eq]
  | held location others =>
    have isHeld : s.location? = some location := by rw [location?, hstate]; rfl
    have last : Lives own first ({ s with state := .held location 0 }, w) := by
      obtain ⟨mounter, books, isPoint⟩ := lives
      rw [isHeld] at books isPoint
      exact ⟨mounter, books, isPoint⟩
    have books := (finish_steps contract last).lives.books
    rw [abandon_held hstate, books.standingSince_eq, books.mountedSince_eq]

/-- **Giving up a source after any run of calls.**  It is finished as often as it was started, and
this comes to an end in no other way.  If it was not started, nothing is done.  Otherwise just its
location is unmounted, once: either nothing is mounted any more and the mount point that is left
empty is taken away, or all is left in place as the unmount that failed has left it.  With a mounter
that keeps its contract, a mount point stands only if it is still mounted. -/
theorem run_abandon {s : MountedSource × World} (fresh : s.1.state = .idle) (calls : List Call) :
    let now := Call.run calls s
    let after := Source.abandon now
    (∃ last, Finishes now.1.startCount now (last, after)) ∧
      (∀ rounds last, Finishes rounds now last →
        rounds = now.1.startCount ∧ last.2 = after) ∧
      (now.1.startCount = 0 → after = now.2) ∧
      (0 < now.1.startCount → ∃ location outcome left, now.1.location? = some location ∧
        World.unmount now.1.mounter location now.2 = (outcome, left) ∧
        after.mountEvents = now.2.mountEvents ++ [.unmount location (faultOf outcome)] ∧
        (outcome = .ok () → World.TakenAway s.2 location left after) ∧
        (∀ fault, outcome = .error fault →
          World.LeftInPlace s.2 location now.2 left after)) ∧
      (s.2.files.IsTree → (s.1.mounter.getD s.2.mounter).KeepsContract →
        World.standingSince s.2 after = World.mountedSince s.2 after) := by
  intro now after
  obtain ⟨last, rounds⟩ := finishes_abandon now.1 now.2
  refine ⟨⟨last, rounds⟩, fun rounds' last' h => ?_, fun unstarted => ?_, fun started => ?_,
    fun isTree contract => ?_⟩
  · obtain ⟨same, ends⟩ := rounds.unique h
    exact ⟨same, by rw [ends]⟩
  · cases hstate : now.1.state with
    | idle => exact abandon_idle hstate
    | held location others => simp [startCount, hstate] at unstarted
  · cases hstate : now.1.state with
    | idle => simp [startCount, hstate] at started
    | held location others =>
      cases unmounted : World.unmount now.1.mounter location now.2 with
      | mk outcome left =>
        have accounts : Accounts s.2 now := run_accounts fresh calls
        obtain ⟨events, rest⟩ := abandon_unmount accounts hstate unmounted
        refine ⟨location, outcome, left, ?_, unmounted, events, rest⟩
        rw [location?, hstate]
        rfl
  · have lives : Lives s.1.mounter s.2 now := perform_lives contract calls (.new fresh isTree)
    exact lives.abandon contract

/-- The drive was started twice, so that it takes two rounds to give it up. -/
theorem run_drive_abandon :
    MountBacked.drive.1.inner.state = .idle ∧
      let now := Call.run [.start, .has "boot", .start]
        (MountBacked.drive.1.inner, MountBacked.drive.2)
      (∃ last, Finishes 2 now (last, Source.abandon now)) ∧
        World.mountedSince MountBacked.drive.2 (Source.abandon now) = [] ∧
        World.standingSince MountBacked.drive.2 (Source.abandon now) = [] := by
  refine ⟨rfl, ?_⟩
  intro now
  have started : now.1.startCount = 2 := by decide +kernel
  have gone : World.mountedSince MountBacked.drive.2 (Source.abandon now) = [] := by
    decide +kernel
  obtain ⟨rounds, -, -, -, contract⟩ :=
    run_abandon (s := (MountBacked.drive.1.inner, MountBacked.drive.2)) rfl
      [.start, .has "boot", .start]
  rw [started] at rounds
  refine ⟨rounds, gone, ?_⟩
  rw [← gone]
  exact contract (by decide) (Mounter.ofNothing_keepsContract [MountCandidate.imageType])

end MountedSource

end InstallMedia
