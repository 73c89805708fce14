import InstallMedia.Proofs.Ftp.Late

/-!
# Servers that store

A server that stores keeps the bytes of every upload that it has completed, and sends them for a
download of the same name.  An upload that succeeds has sent the whole feed.  On a session in step
it succeeds only if such a server has answered that the upload is complete; then a download that
comes next is given what was uploaded, whatever was called before.

## Main definitions

* `FtpServer.Stores`, `Network.Stores`: servers that conform and store
* `Connection.Completes`: the server has completed an upload
* `FtpSource.Sent`: a feed that was sent whole

## Main results

* `Connection.upload_completed`: an upload that succeeds in step was completed
* `Connection.Completes.delivers`: the download that comes next is given what was uploaded
* `FtpSource.run_attended`: over every run, a session is in step or late, if no port is named amiss
* `FtpSource.sent_of_store`, `FtpSource.not_late_of_store`: what a store that succeeds has done
-/

namespace InstallMedia

open Attempt (Meets)
open Connection

/-- A server that conforms and stores what is uploaded.  After all that it was told, `files` are the
bytes that it has under a name. -/
structure FtpServer.Stores (server : FtpServer) (answers : Transcript → List WireReply)
    (files : Transcript → String → Option Bytes) : Prop where
  conforms : server.Conforms answers
  /-- The bytes of an upload that was accepted and completed are kept under its name. -/
  stored : ∀ t path bytes r last, IsOneLine path →
    answers (t ++ [asked ("STOR " ++ path)]) = [r] → r.IsPreliminary →
    answers (t ++ [asked ("STOR " ++ path)] ++ [.uploaded bytes]) = [last] → last.group = 2 →
    files (t ++ [asked ("STOR " ++ path)] ++ [.uploaded bytes]) path = some bytes
  /-- They are kept while a transfer is prepared. -/
  kept : ∀ t host port path,
    files (t ++ [asked "TYPE I", asked "PASV", .dialled host port]) path = files t path
  /-- They are sent for a download of the name. -/
  served : ∀ t path bytes, IsOneLine path → files t path = some bytes →
    (server.download (t ++ [asked ("RETR " ++ path)])).Delivers bytes

/-- A network on which whoever answers conforms and stores. -/
def Network.Stores (network : Network) (answers : FtpServer → Transcript → List WireReply)
    (files : FtpServer → Transcript → String → Option Bytes) : Prop :=
  ∀ past host port server, network.server past host port = .ok server →
    server.Stores (answers server) (files server)

/-- A network on which nobody names a port but in the answer to `PASV`. -/
def Network.NamesNoPort (network : Network) (answers : FtpServer → Transcript → List WireReply) :
    Prop :=
  ∀ past host port server, network.server past host port = .ok server →
    FtpServer.NamesNoPort (answers server)

namespace Connection

/-- An upload that the server has accepted and, after these bytes, answered with `last`. -/
structure Answered (answers : Transcript → List WireReply) (path : String) (t : Transcript)
    (bytes : Bytes) (last : WireReply) (c : Connection) : Prop where
  transcript_eq : c.transcript = t ++ [asked ("STOR " ++ path)] ++ [.uploaded bytes]
  accepted : ∃ r, answers (t ++ [asked ("STOR " ++ path)]) = [r] ∧ r.IsPreliminary
  answer_eq : answers c.transcript = [last]

/-- The server itself has accepted an upload over the connection `first` and, after the bytes that
it was sent up to the end of the data connection, has completed it. -/
structure Completes (answers : Transcript → List WireReply) (first : Connection) (path : String)
    (port : Nat) (c : Connection) : Prop where
  accepted : ∃ r, answers (first.transcript ++
    beginning first.peer "TYPE I" ("STOR " ++ path) port) = [r] ∧ r.IsPreliminary
  completed : ∃ last, answers c.transcript = [last] ∧ last.group = 2

variable {server : FtpServer} {answers : Transcript → List WireReply}
  {past : List (Nat × FtpReply)} {first c c' : Connection} {path : String}

/-- What begins a transfer is the same up to its command. -/
theorem beginning_eq (peer line : String) (port : Nat) : beginning peer "TYPE I" line port =
    [asked "TYPE I", asked "PASV", .dialled peer port] ++ [asked line] := rfl

/-- An upload succeeds only once the server has completed it. -/
theorem upload_answered (hs : server.Conforms answers) (past : List (Nat × FtpReply))
    (hp : IsOneLine path) (feed : Feed) :
    Meets (fun s => s.1 = feed ∧ Rests server answers past s.2) (upload path)
      (fun _ s => ∃ t bytes last, Answered answers path t bytes last s.2 ∧ last.group = 2)
      fun _ => True := by
  have line := isOneLine_store hp
  have isUpload := isUpload_store path
  refine upload_of_begun hs hp (fun _ _ => trivial) ?_
  refine Meets.bind (Q := fun s' s => s' = s ∧
    Begun server answers past s.2 ("STOR " ++ path) []) (.get fun s h => ⟨rfl, h.2⟩) fun s' => ?_
  -- Once the data has been sent, the answer to it is all that is left to be read.
  refine Meets.bind (Q := fun _ s => ∃ t bytes last, s.2.Owes answers [last] ∧
    Answered answers path t bytes last s.2) ?_ fun _ => ?_
  · rintro _ ⟨rfl, begun⟩
    obtain ⟨t, r, last, told, accepted, preliminary, completed, -, owes⟩ :=
      begun.sends hs line isUpload (copy (uplink s'.2.server s'.2.transcript) s'.1 []).sink
    exact ⟨t, _, last, owes, by rw [tell, told]; rfl, ⟨r, accepted, preliminary⟩, completed⟩
  refine .ofExcept_bind (fun sent _ => ?_) fun _ _ => trivial
  have read : Meets (fun c => ∃ t bytes last, c.Owes answers [last] ∧
      Answered answers path t bytes last c) readReply
      (fun reply c => ∃ t bytes last, reply = last.reply ∧ Answered answers path t bytes last c)
      fun _ => True := by
    rintro c ⟨t, bytes, last, owes, answered⟩
    rw [(readReply_of_owes owes).1]
    exact ⟨t, bytes, last, rfl, answered.transcript_eq, answered.accepted, answered.answer_eq⟩
  refine (read.part fun _ _ => rfl).bind fun reply => ?_
  rintro s ⟨t, bytes, last, rfl, answered⟩
  by_cases complete : last.reply.group = 2
  · rw [check_of_group complete]
    exact ⟨t, bytes, last, answered, complete⟩
  · rw [check_of_other complete]
    trivial

/-- **An upload that succeeds** in step has sent the whole feed, and the server has completed it. -/
theorem upload_completed (hs : server.Conforms answers) (past : List (Nat × FtpReply))
    (hp : IsOneLine path) (feed : Feed) :
    Meets (fun s => s.1 = feed ∧ Rests server answers past s.2 ∧ Told first [] s.2) (upload path)
      (fun _ s => feed.IsSound ∧ ∃ port,
        Told first (beginning first.peer "TYPE I" ("STOR " ++ path) port ++
          [.uploaded (Listing.received feed).1]) s.2 ∧
        Completes answers first path port s.2) fun _ => True := by
  refine ((upload_told path feed).and (upload_answered hs past hp feed)).weaken
    (fun s h => ⟨⟨h.1, h.2.2⟩, h.1, h.2.1⟩) ?_ fun _ _ => trivial
  rintro _ ⟨_, c⟩ ⟨⟨sound, port, told⟩, t, bytes, last, answered, complete⟩
  -- Both accounts are of the same transcript.
  have same := answered.transcript_eq.symm.trans told.transcript_eq
  rw [List.nil_append, ← List.append_assoc] at same
  obtain ⟨begun, ended⟩ := List.append_inj' same rfl
  obtain ⟨r, accepted, preliminary⟩ := answered.accepted
  rw [begun] at accepted
  exact ⟨sound, port, told, ⟨r, accepted, preliminary⟩, last, answered.answer_eq, complete⟩

/-- What the server has completed is what a download of the same name is then given. -/
theorem Completes.delivers {files : Transcript → String → Option Bytes} {bytes : Bytes}
    {port : Nat} {feed : Feed} (hs : first.server.Stores answers files) (hp : IsOneLine path)
    (told : Told first (beginning first.peer "TYPE I" ("STOR " ++ path) port ++
      [.uploaded bytes]) c)
    (completes : Completes answers first path port c)
    (downloading : Downloading c [] path feed c') : feed.Delivers bytes := by
  obtain ⟨port', told'⟩ := downloading.told
  obtain ⟨r, accepted, preliminary⟩ := completes.accepted
  obtain ⟨last, completed, complete⟩ := completes.completed
  have server := told'.server_eq.trans told.server_eq
  have stored : files c.transcript path = some bytes := by
    rw [beginning_eq, ← List.append_assoc] at accepted
    rw [told.transcript_eq, beginning_eq, ← List.append_assoc, ← List.append_assoc]
      at completed ⊢
    exact hs.stored _ path bytes r last hp accepted preliminary completed complete
  rw [← hs.kept c.transcript c.peer port' path] at stored
  rw [downloading.feed_eq, server, told'.transcript_eq, List.nil_append, beginning_eq,
    ← List.append_assoc]
  exact hs.served _ path bytes hp stored

end Connection

/-! ## Operations -/

namespace FtpSource

/-- An operation that succeeds has drained the connection of the session. -/
theorem onIdle_eq_ok {σ α : Type} {name : String} {x : Attempt (σ × Connection) SourceError α}
    {a : σ} {s : FtpSource} {b : α} (h : (onIdle name x (a, s)).1 = .ok b) :
    ∃ c others reply c₁, s.session = .held c others ∧ drain c = (.ok reply, c₁) ∧
      (x (a, c₁)).1 = .ok b ∧
      (onIdle name x (a, s)).2.2 = { s with session := .held (x (a, c₁)).2.2 others } := by
  cases held : s.session with
  | idle =>
    rw [onIdle, held] at h
    cases h
  | held c others =>
    cases drained : drain c with
    | mk result c₁ =>
      cases result with
      | error fault =>
        simp only [onIdle, held, drained] at h
        cases h
      | ok reply =>
        simp only [onIdle, held, drained] at h ⊢
        exact ⟨c, others, reply, c₁, rfl, drained, h, rfl⟩

/-! ## Runs -/

variable {answers : FtpServer → Transcript → List WireReply}
  {files : FtpServer → Transcript → String → Option Bytes}

/-- A connection to a server that stores and names no port but in the answer to `PASV`.  It is in
step, or late. -/
structure Lasting (answers : FtpServer → Transcript → List WireReply)
    (files : FtpServer → Transcript → String → Option Bytes) (c : Connection) : Prop where
  stores : c.server.Stores (answers c.server) (files c.server)
  namesNoPort : FtpServer.NamesNoPort (answers c.server)
  attends : c.InStep (answers c.server) ∨ IsLate c.server c

/-- What every call preserves. -/
structure Attended (answers : FtpServer → Transcript → List WireReply)
    (files : FtpServer → Transcript → String → Option Bytes) (first s : FtpSource × World) :
    Prop where
  address_eq : s.1.address = first.1.address
  network_eq : s.2.network = first.2.network
  live : ∀ c others, s.1.session = .held c others → Lasting answers files c

section Calls

variable {first s : FtpSource × World} (h : Attended answers files first s)

include h

theorem start_attended (hw : first.2.network.Stores answers files)
    (ports : first.2.network.NamesNoPort answers) (ha : first.1.address.IsOneLine) :
    Attended answers files first (start s).2 := by
  obtain ⟨s, w⟩ := s
  obtain ⟨address, network, live⟩ := h
  rw [← network] at hw ports
  rw [← address] at ha
  have started := starts s w
  generalize start (s, w) = outcome at started
  cases started with
  | again c others more held =>
    exact ⟨address, network, Counted.forall_held (live c others held) more⟩
  | refused => exact ⟨address, network, Counted.forall_idle⟩
  | opened dialled past host port server c idle found spoke =>
    have stores := hw _ _ _ _ found
    have opened := opening_meets stores.conforms ha host (.fresh server host) rfl
    rw [spoke] at opened
    obtain ⟨past, rests⟩ := opened
    obtain rfl := rests.server_eq
    exact ⟨address, network, Counted.forall_held
      ⟨stores, ports _ _ _ _ found, Or.inl rests.inStep⟩ 0⟩
  | failed => exact ⟨address, network, Counted.forall_idle⟩

theorem finish_attended : Attended answers files first (finish s).2 := by
  obtain ⟨s, w⟩ := s
  obtain ⟨address, network, live⟩ := h
  have finished := finishes s w
  generalize finish (s, w) = outcome at finished
  cases finished with
  | unheld => exact ⟨address, network, Counted.forall_idle⟩
  | last => exact ⟨address, network, Counted.forall_idle⟩
  | others c left held => exact ⟨address, network, Counted.forall_held (live c _ held) left⟩

/-- Every call leaves a session in step or late, whatever transfers fail. -/
theorem perform_attended (hw : first.2.network.Stores answers files)
    (ports : first.2.network.NamesNoPort answers) (ha : first.1.address.IsOneLine) {call : Call}
    (oneLine : CallIsOneLine call) : Attended answers files first (call.perform s).2 := by
  by_cases hcall : IsOperation call
  · obtain ⟨s, w⟩ := s
    cases held : s.session with
    | idle =>
      rw [perform_idle hcall w held]
      exact h
    | held c others =>
      obtain ⟨stores, silent, attends⟩ := h.live c others held
      obtain ⟨c', performed, server, attends'⟩ : ∃ c',
          (call.perform (s, w)).2 = ({ s with session := .held c' others }, w) ∧
            c'.server = c.server ∧ (c'.InStep (answers c.server) ∨ IsLate c.server c') := by
        rcases attends with step | late
        · obtain ⟨c', performed, settled⟩ :=
            perform_held (w := w) hcall oneLine stores.conforms held step
          refine ⟨c', performed, settled.server_eq, ?_⟩
          cases settled with
          | inStep _ step' => exact Or.inl step'
          | unfinished unfinished => exact Or.inr unfinished.isLate
        · obtain ⟨c', performed, r, lags⟩ :=
            perform_late (w := w) hcall held stores.conforms silent late
          exact ⟨c', performed, lags.server_eq, Or.inr ⟨r, lags⟩⟩
      rw [performed]
      rw [← server] at stores attends' silent
      exact ⟨h.address_eq, h.network_eq, Counted.forall_held ⟨stores, silent, attends'⟩ others⟩
  · cases call with
    | start => exact start_attended h hw ports ha
    | finish => exact finish_attended h
    | _ => exact absurd ⟨nofun, nofun⟩ hcall

end Calls

/-- Over every run, a session is in step or late, if servers name no port but in the answer to
`PASV`. -/
theorem run_attended {s : FtpSource} {w : World} (idle : s.session = .idle)
    (ha : s.address.IsOneLine) (hw : w.network.Stores answers files)
    (ports : w.network.NamesNoPort answers) {calls : List Call}
    (oneLine : ∀ call ∈ calls, CallIsOneLine call) :
    Attended answers files (s, w) (Call.run calls (s, w)) := by
  have start : Attended answers files (s, w) (s, w) :=
    ⟨rfl, rfl, fun c others held => by simp [idle] at held⟩
  exact Call.run_induction (Attended answers files (s, w)) (fun call hcall _ h =>
    perform_attended h hw ports ha (oneLine call hcall)) start

/-! ## Transfers -/

section Transfers

variable {s : FtpSource} {w : World} {name : String}

/-- A name is opened by a download on the drained connection of the session. -/
theorem openFile_eq_ok {c : Connection} {others : Nat} (held : s.session = .held c others)
    {stream : Stream} (opened : (openFile name (s, w)).1 = .ok stream) :
    ∃ reply c₁ path feed c', drain c = (.ok reply, c₁) ∧ percentDecode name = .ok path ∧
      download path c₁ = (.ok feed, c') ∧ stream = .feed feed ∧
      (openFile name (s, w)).2 = ({ s with session := .held c' others }, w) := by
  obtain ⟨c₀, _, reply, c₁, same, drained, ran, -⟩ := onIdle_eq_ok opened
  obtain ⟨rfl, rfl⟩ : c = c₀ ∧ others = _ := by simpa [held] using same
  cases decoded : percentDecode name with
  | error e =>
    rw [decoded] at ran
    cases ran
  | ok path =>
    rw [openFile_of_drained held drained decoded] at opened ⊢
    obtain ⟨feed, begun, rfl⟩ := map_eq_ok_iff.mp (mapError_eq_ok_iff.mp opened)
    exact ⟨reply, c₁, path, feed, _, drained, rfl, Prod.ext begun rfl, rfl, rfl⟩

/-- A name that is opened is being downloaded. -/
theorem openFile_downloading {c : Connection} {others : Nat} (held : s.session = .held c others)
    {stream : Stream} (opened : (openFile name (s, w)).1 = .ok stream) :
    ∃ path feed c', percentDecode name = .ok path ∧ stream = .feed feed ∧
      Downloading c [] path feed c' := by
  obtain ⟨reply, c₁, path, feed, c', drained, decoded, begun, rfl, -⟩ := openFile_eq_ok held opened
  have told := drain_told c (Told.refl c)
  rw [drained] at told
  have downloading := download_told path c₁ told
  rw [begun] at downloading
  exact ⟨path, feed, c', decoded, rfl, downloading⟩

/-- A feed that was sent under a name over the connection `c`: all that it has given is the payload
of one upload, up to the end of the data connection. -/
structure Sent (name : String) (feed : Feed) (path : String) (payload : Bytes) (port : Nat)
    (c c' : Connection) : Prop where
  decoded : percentDecode name = .ok path
  delivers : feed.Delivers payload
  told : Told c (beginning c.peer "TYPE I" ("STOR " ++ path) port ++ [.uploaded payload]) c'

section Store

variable {c : Connection} {others : Nat} (held : s.session = .held c others) {feed : Feed}
  (stored : (Source.store name (.feed feed, s, w)).1 = .ok ())

include held stored

/-- A name is stored by an upload on the drained connection of the session. -/
theorem store_eq_ok :
    ∃ reply c₁ path number left c', drain c = (.ok reply, c₁) ∧ percentDecode name = .ok path ∧
      Connection.upload path (feed, c₁) = (.ok number, left, c') ∧
      (Source.store name (.feed feed, s, w)).2.2 = ({ s with session := .held c' others }, w) := by
  rw [store_fst] at stored
  have writable : s.readOnly ≠ true := by
    intro readOnly
    simp [readOnly] at stored
  rw [if_neg writable] at stored
  rw [store_snd, if_neg writable]
  obtain ⟨c₀, _, reply, c₁, same, drained, ran, left⟩ := onIdle_eq_ok stored
  obtain ⟨rfl, rfl⟩ : c = c₀ ∧ others = _ := by simpa [held] using same
  cases decoded : percentDecode name with
  | error e =>
    rw [decoded] at ran
    cases ran
  | ok path =>
    rw [decoded, Attempt.ofExcept_ok_bind, Attempt.discard_apply] at ran left
    obtain ⟨number, uploaded, -⟩ := map_eq_ok_iff.mp ran
    refine ⟨reply, c₁, path, number, _, _, drained, rfl,
      Prod.ext (mapError_eq_ok_iff.mp uploaded) rfl, ?_⟩
    rw [upload, decoded, Attempt.ofExcept_ok_bind, left]
    rfl

/-- What is stored was sent whole, whatever the state of the session.  In step with a server that
conforms, the server has completed it. -/
theorem sent_of_store (answers : Transcript → List WireReply) :
    ∃ path payload port c', Sent name feed path payload port c c' ∧
      (Source.store name (.feed feed, s, w)).2.2 = ({ s with session := .held c' others }, w) ∧
      (c.server.Conforms answers → NameIsOneLine name → c.InStep answers →
        Completes answers c path port c') := by
  obtain ⟨reply, c₁, path, number, left, c', drained, decoded, uploaded, kept⟩ :=
    store_eq_ok held stored
  have told := drain_told c (Told.refl c)
  rw [drained] at told
  by_cases known : c.server.Conforms answers ∧ NameIsOneLine name ∧ c.InStep answers
  · obtain ⟨hs, hn, step⟩ := known
    have rests := drain_meets c ⟨rfl, step, rfl⟩
    rw [drained] at rests
    have run := upload_completed hs c.heard (hn path decoded) feed (feed, c₁) ⟨rfl, rests, told⟩
    rw [uploaded] at run
    obtain ⟨sound, port, told', completes⟩ := run
    exact ⟨path, _, port, c', ⟨decoded, sound.delivers, told'⟩, kept, fun _ _ _ => completes⟩
  · have run := upload_told path feed (feed, c₁) ⟨rfl, told⟩
    rw [uploaded] at run
    obtain ⟨sound, port, told'⟩ := run
    exact ⟨path, _, port, c', ⟨decoded, sound.delivers, told'⟩, kept,
      fun hs hn step => absurd ⟨hs, hn, step⟩ known⟩

/-- On a late session nothing is stored, if the server names no port but in the answer to `PASV`. -/
theorem not_late_of_store {answers : Transcript → List WireReply} (hs : c.server.Conforms answers)
    (ports : FtpServer.NamesNoPort answers) : ¬ IsLate c.server c := by
  rintro ⟨r, lags⟩
  obtain ⟨reply, c₁, path, number, left, c', drained, -, uploaded, -⟩ := store_eq_ok held stored
  -- A late connection takes itself to be idle, so nothing is read before the upload.
  rw [drain, if_pos lags.idle] at drained
  obtain ⟨-, rfl⟩ : _ ∧ c = c₁ := by simpa using drained
  have run := upload_late hs ports path (feed, c) ⟨r, lags⟩
  rw [uploaded] at run
  exact run

end Store

end Transfers

end FtpSource

end InstallMedia
