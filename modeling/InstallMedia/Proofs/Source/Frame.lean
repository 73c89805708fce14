import InstallMedia.Proofs.Ftp.Session
import InstallMedia.Proofs.Source.Mounted
import InstallMedia.Source.Directory
import InstallMedia.Source.Http

/-!
# What calls leave alone

A site changes nothing in the world but what is known of connections or of requests, and a directory
nothing but files.  None of them asks for a mount, or makes a temporary directory.

## Main results

* `FtpSource.perform_frame`, `HttpSource.perform_frame`, `FileSource.perform_frame`: one call
* `FtpSource.run_frame`, `HttpSource.run_frame`, `FileSource.run_frame`: a run of calls
-/

namespace InstallMedia

namespace FtpSource

/-- On a drained connection nothing changes but the session. -/
theorem onIdle_frame {σ α : Type} (name : String) (x : Attempt (σ × Connection) SourceError α)
    (a : σ) (s : FtpSource) : ∃ session, (onIdle name x (a, s)).2.2 = { s with session } := by
  rw [onIdle]
  cases held : s.session with
  | idle => exact ⟨s.session, rfl⟩
  | held c others =>
    dsimp only
    split
    · exact ⟨_, rfl⟩
    · exact ⟨_, rfl⟩

/-- A call changes at most the session and what is known of connections. -/
theorem perform_frame (call : Call) (s : FtpSource × World) :
    ∃ session dialled ended,
      (call.perform s).2 = ({ s.1 with session }, { s.2 with dialled, ended }) := by
  obtain ⟨s, w⟩ := s
  have quiet {α : Type} (x : Attempt (Unit × FtpSource) SourceError α)
      (hx : ∃ session, (x ((), s)).2.2 = { s with session }) :
      ∃ session dialled ended,
        (beside x (s, w)).2 = ({ s with session }, { w with dialled, ended }) := by
    obtain ⟨session, same⟩ := hx
    exact ⟨session, w.dialled, w.ended, congrArg (·, w) same⟩
  cases call with
  -- Whichever way a start or a finish goes, what it leaves can be read off the case.
  | start =>
    have started := starts s w
    change ∃ session dialled ended, (start (s, w)).2 = _
    generalize start (s, w) = outcome at started
    cases started with
    | again => exact ⟨_, _, _, rfl⟩
    | refused => exact ⟨_, _, _, rfl⟩
    | opened => exact ⟨_, _, _, rfl⟩
    | failed => exact ⟨_, _, _, rfl⟩
  | finish =>
    have finished := finishes s w
    change ∃ session dialled ended, (finish (s, w)).2 = _
    generalize finish (s, w) = outcome at finished
    cases finished with
    | unheld => exact ⟨_, _, _, rfl⟩
    | last => exact ⟨_, _, _, rfl⟩
    | others => exact ⟨_, _, _, rfl⟩
  | openFile name => exact quiet _ (onIdle_frame name _ () s)
  | has name =>
    change ∃ session dialled ended, (Source.has name (s, w)).2 = _
    rw [has_snd]
    exact quiet _ (onIdle_frame name _ () s)
  | store name stream =>
    change ∃ session dialled ended, (Source.store name (stream, s, w)).2.2 = _
    rw [store_snd]
    split
    · exact ⟨s.session, w.dialled, w.ended, rfl⟩
    · obtain ⟨session, same⟩ := onIdle_frame name _ (stream.contents w.files) s
      exact ⟨session, w.dialled, w.ended, congrArg (·, w) same⟩

/-- So does a run. -/
theorem run_frame (calls : List Call) (s : FtpSource × World) :
    ∃ session dialled ended,
      Call.run calls s = ({ s.1 with session }, { s.2 with dialled, ended }) := by
  induction calls generalizing s with
  | nil => exact ⟨s.1.session, s.2.dialled, s.2.ended, rfl⟩
  | cons call calls ih =>
    obtain ⟨session, dialled, ended, frame⟩ := perform_frame call s
    rw [Call.run_cons, frame]
    exact ih _

end FtpSource

namespace HttpSource

variable [InternationalNames]

theorem follow_snd (authorization : Option String) (left : Nat) (url : Url) (w : World) :
    ∃ requests, (HttpClient.follow authorization left url w).2 = { w with requests } := by
  -- On the redirections left: each asks once more, of a world with one request more.
  induction left generalizing authorization url w with
  | zero =>
    unfold HttpClient.follow
    split
    · exact ⟨w.requests, rfl⟩
    · split
      · rename_i asked
        obtain rfl := congrArg Prod.snd asked
        exact ⟨_, rfl⟩
      · rename_i asked
        obtain rfl := congrArg Prod.snd asked
        split <;> exact ⟨_, rfl⟩
  | succ left ih =>
    unfold HttpClient.follow
    split
    · exact ⟨w.requests, rfl⟩
    · split
      · rename_i asked
        obtain rfl := congrArg Prod.snd asked
        exact ⟨_, rfl⟩
      · rename_i asked
        obtain rfl := congrArg Prod.snd asked
        split
        · exact ⟨_, rfl⟩
        · exact ih _ _ _

theorem get_snd (credentials : Option Credentials) (url : Url) (w : World) :
    ∃ requests, (HttpClient.get credentials url w).2 = { w with requests } := by
  obtain ⟨requests, followed⟩ := follow_snd (credentials.map Credentials.header)
    HttpClient.redirectLimit url w
  refine ⟨requests, ?_⟩
  rw [← followed, HttpClient.get, Attempt.bind_apply]
  cases HttpClient.follow (credentials.map Credentials.header) HttpClient.redirectLimit url w with
  | mk result w' =>
    cases result with
    | error fault => rfl
    | ok answer =>
      dsimp only
      split <;> rfl

theorem openFile_frame (name : String) (s : HttpSource) (w : World) :
    ∃ requests, (openFile name (s, w)).2 = (s, { w with requests }) := by
  unfold openFile
  dsimp only
  split
  · exact ⟨w.requests, rfl⟩
  · rename_i url _
    obtain ⟨requests, got⟩ := get_snd s.credentials url w
    split
    · rename_i answered
      rw [answered] at got
      exact ⟨requests, congrArg (s, ·) got⟩
    · rename_i answered
      rw [answered] at got
      exact ⟨requests, congrArg (s, ·) got⟩

/-- A call changes at most what has been asked for. -/
theorem perform_frame (call : Call) (s : HttpSource) (w : World) :
    ∃ requests, (call.perform (s, w)).2 = (s, { w with requests }) := by
  cases call with
  | start => exact ⟨w.requests, rfl⟩
  | finish => exact ⟨w.requests, rfl⟩
  | openFile name => exact openFile_frame name s w
  | has name => exact openFile_frame name s w
  | store name stream => exact ⟨w.requests, rfl⟩

/-- So does a run. -/
theorem run_frame (calls : List Call) (s : HttpSource) (w : World) :
    ∃ requests, Call.run calls (s, w) = (s, { w with requests }) := by
  refine Call.run_induction (fun now => ∃ requests, now = (s, { w with requests }))
    (fun call _ now h => ?_) ⟨w.requests, rfl⟩
  obtain ⟨requests, rfl⟩ := h
  exact perform_frame call s _

end HttpSource

namespace FileSource

/-- A call changes at most files, and no directory. -/
theorem perform_frame (call : Call) (s : FileSource) (w : World) :
    ∃ files : FileTree, w.files.KeepsDirectories files ∧
      (call.perform (s, w)).2 = (s, { w with files }) := by
  cases call with
  | start => exact ⟨w.files, .refl _, rfl⟩
  | finish => exact ⟨w.files, .refl _, rfl⟩
  | openFile name => exact ⟨w.files, .refl _, Source.openIn_snd s.base name _⟩
  | has name => exact ⟨w.files, .refl _, Source.openIn_snd s.base name _⟩
  | store name stream =>
    change ∃ files : FileTree, _ ∧ (Source.whenWritable s.readOnly name _ (stream, s, w)).2.2 = _
    rw [Source.whenWritable_apply]
    split
    · exact ⟨w.files, .refl _, rfl⟩
    · exact Source.storeIn_snd s.base name stream s w

/-- A run changes at most files. -/
theorem run_frame (calls : List Call) (s : FileSource) (w : World) :
    ∃ files, Call.run calls (s, w) = (s, { w with files }) := by
  refine Call.run_induction (fun now => ∃ files, now = (s, { w with files }))
    (fun call _ now h => ?_) ⟨w.files, rfl⟩
  obtain ⟨files, rfl⟩ := h
  obtain ⟨files', -, performed⟩ := perform_frame call s { w with files }
  exact ⟨files', performed⟩

end FileSource

end InstallMedia
