import InstallMedia.Proofs.Ftp.Storage
import InstallMedia.Proofs.Ftp.Lifecycle

/-!
# What is heard of a download

A download hears that the server accepts it, and nothing else.  The reply that completes it comes
after the data.  It is heard before the next command, or before the goodbye, and nothing is made of
it.

## Main definitions

* `Connection.HeardGo`: a connection on which the last command was accepted
* `FtpSource.Fetching`: a download that was begun on a new session

## Main results

* `Connection.download_heardGo`: a download succeeds when the server has accepted it
* `Connection.Offers.heard_closing`: the reply to a download is read before the goodbye
* `FtpSource.fetching_of_openFile`: a name that is opened on a new session is being downloaded
-/

namespace InstallMedia

open Attempt (Meets)
open Connection

namespace Connection

/-! ## Commands and replies -/

/-- A reply that was read is the last one heard. -/
theorem readReply_heard (past : List (Nat × FtpReply)) :
    Meets (fun c => c.heard = past) readReply
      (fun reply c => c.heard = past ++ [(Transcript.commands c.transcript, reply)])
      fun c => c.heard = past := by
  rintro c rfl
  rw [readReply]
  cases FtpReply.read (c.server.silence c.transcript) c.unread with
  | mk result rest => cases result <;> rfl

/-- Nothing is heard while a command is sent. -/
theorem send_heard (line : String) (past : List (Nat × FtpReply)) :
    Meets (fun c => c.heard = past) (send line) (fun _ c => c.heard = past)
      fun c => c.heard = past := by
  rintro c rfl
  rw [send]
  by_cases pending : c.state = .awaitingReply
  · rw [if_pos pending]
  · rw [if_neg pending]
    cases c.server.blocked c.transcript <;> rfl

/-- The reply to a command is the last one heard. -/
theorem command_heard (line : String) (past : List (Nat × FtpReply)) :
    Meets (fun c => c.heard = past) (command line)
      (fun reply c => c.heard = past ++ [(Transcript.commands c.transcript, reply)])
      fun c => c.heard = past :=
  (send_heard line past).bind fun _ => readReply_heard past

/-! ## Downloads -/

/-- The last reply that was heard was to the last command, and is preliminary. -/
def HeardGo (c : Connection) : Prop :=
  ∃ reply, c.heard.getLast? = some (Transcript.commands c.transcript, reply) ∧ reply.group = 1

/-- A command that uses a data connection succeeds when the reply to it is preliminary. -/
theorem openData_heardGo (line : String) :
    Meets (fun _ => True) (openData line) (fun _ => HeardGo) fun _ => True := by
  have any {α : Type} (x : Session α) :
      Meets (fun _ => True) x (fun _ _ => True) fun _ => True :=
    .of_forall (fun _ _ => trivial) fun _ => trivial
  refine (any _).bind fun reply => .ofExcept_bind (fun port _ => (any _).bind fun _ => ?_)
    fun _ h => h
  have heard := Meets.exists_of_forall (command_heard line)
  refine (heard.weaken (fun c _ => ⟨c.heard, rfl⟩) (fun _ _ h => h) fun _ _ => trivial).bind
    fun reply => ?_
  split
  · rename_i accepted
    refine .pure fun c ⟨past, last⟩ => ⟨reply, ?_, accepted⟩
    rw [last, List.getLast?_concat]
  · exact .fail fun _ _ => trivial

/-- A download succeeds when the server has accepted it; after that nothing is heard. -/
theorem download_heardGo (path : String) :
    Meets (fun _ => True) (download path) (fun _ => HeardGo) fun _ => True := by
  refine Meets.bind (Q := fun _ _ => True) ?_ fun _ => (openData_heardGo _).bind fun _ => ?_
  · exact .of_forall (fun _ _ => trivial) fun _ => trivial
  refine Meets.bind (Q := fun _ => HeardGo) (.modify fun _ h => h) fun _ => ?_
  exact Meets.bind (Q := fun _ => HeardGo) (.get fun _ h => h) fun _ => .pure fun _ h => h

/-! ## The goodbye -/

/-- The goodbye forgets nothing that was heard. -/
theorem quit_heard (past : List (Nat × FtpReply)) :
    Meets (fun c => c.heard = past) quit (fun _ c => past <+: c.heard)
      fun c => past <+: c.heard := by
  have said := command_heard "QUIT" past
  refine Meets.discard (Meets.bind (Q := fun _ c => past <+: c.heard) ?_ fun reply => ?_)
  · refine said.weaken (fun _ h => h) (fun reply c heard => ?_) fun c heard => ?_
    · exact heard ▸ List.prefix_append _ _
    · exact heard ▸ List.prefix_refl _
  · refine Meets.bind (Q := fun _ c => past <+: c.heard) ?_ fun _ => .pure fun _ h => h
    exact .ofExcept (fun _ _ _ h => h) fun _ _ _ h => h

/-- The reply to a download is read before the goodbye, whatever its code, and discarded. -/
theorem Offers.heard_closing {c : Connection} {answer : FtpReply} {rest : Bytes}
    (offers : c.Offers answer rest) (awaiting : c.state = .awaitingReply) :
    c.heard ++ [(Transcript.commands c.transcript, answer)] <+:
      (FtpSource.closing c).2.heard := by
  have drained := (drain_eq_ok_iff awaiting).mpr ⟨answer, rest, rfl, offers, rfl⟩
  have run : Meets (fun c' => c' = c) FtpSource.closing
      (fun _ c' => c.heard ++ [(Transcript.commands c.transcript, answer)] <+: c'.heard)
      fun c' => c.heard ++ [(Transcript.commands c.transcript, answer)] <+: c'.heard := by
    refine Meets.bind (Q := fun _ c' => c'.heard = (c.take answer rest).heard) ?_ fun _ =>
      quit_heard _
    rintro _ rfl
    rw [Attempt.discard_apply, drained]
    rfl
  exact run.snd rfl

end Connection

namespace FtpSource

variable {s : FtpSource} {w now : World} {name : String}

/-- A new source has no session. -/
theorem idle_of_ofAddress [InternationalNames] {address : String} {readOnly : Bool}
    (h : ofAddress address readOnly = .ok s) : s.session = .idle := by
  obtain ⟨-, parts, -, -, rfl⟩ := ofAddress_eq_ok_iff.mp h
  rfl

/-- A download that was begun on a new session of a site.  The server has accepted it, and nothing
was heard since: its data is unread, and so is the reply that completes it. -/
structure Fetching (s : FtpSource) (w : World) (name : String) (first : Connection) (path : String)
    (feed : Feed) (c : Connection) (now : World) : Prop where
  started : start (s, w) = (.ok (), { s with session := .held first 0 }, now)
  dialled : ∃ host port, now = { w with dialled := w.dialled ++ [(host, port)] }
  opened : openFile name ({ s with session := .held first 0 }, now) =
    (.ok (.feed feed), { s with session := .held c 0 }, now)
  decoded : percentDecode name = .ok path
  downloading : Downloading first [] path feed c
  accepted : c.HeardGo

/-- A name that is opened on a new session is being downloaded. -/
theorem fetching_of_openFile (idle : s.session = .idle) {s' : FtpSource} {stream : Stream}
    (started : start (s, w) = (.ok (), s', now))
    (opened : (openFile name (s', now)).1 = .ok stream) :
    ∃ first path feed c, stream = .feed feed ∧ Fetching s w name first path feed c now := by
  have begun := starts s w
  rw [started] at begun
  cases begun with
  | again c others more held => simp [idle] at held
  | opened dialled past host port server first _ found spoke asked =>
    obtain ⟨reply, c₁, path, feed, c, drained, decoded, downloaded, rfl, left⟩ :=
      openFile_eq_ok rfl opened
    have told := drain_told first (Told.refl first)
    rw [drained] at told
    have downloading := download_told path c₁ told
    have accepted := download_heardGo path c₁ trivial
    rw [downloaded] at downloading accepted
    exact ⟨first, path, feed, c, rfl, started, ⟨host, port, by rw [asked]⟩, Prod.ext opened left,
      decoded, downloading, accepted⟩

end FtpSource

end InstallMedia
