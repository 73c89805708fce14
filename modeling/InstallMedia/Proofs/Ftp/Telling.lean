import InstallMedia.Proofs.Ftp.Dialogue
import InstallMedia.Proofs.Stream.Copy

/-!
# What dialogues tell a server

Whatever a server answers, a dialogue stays on its connection and only adds to what the server was
told.  A dialogue that succeeds has told just what it is there to tell: its commands in order, and
for a transfer the data connection between them.

## Main definitions

* `Connection.Told`: a later state of a connection, with what was told since
* `Connection.Continues`: a later state of a connection

## Main results

* `Connection.quit_told`, `Connection.drain_told`, `Connection.greet_told`: what is told at the ends
* `Connection.download_told`, `Connection.upload_told`: what a transfer that succeeds has told
* `Connection.login_continues`, `Connection.listing_continues`: the others
-/

namespace InstallMedia.Connection

open Attempt (Meets)

/-- A command, as the server is told it. -/
def asked (line : String) : FtpEvent := .sent (wire line)

/-- A later state of the connection `first`, whose server was told these events since. -/
structure Told (first : Connection) (events : List FtpEvent) (c : Connection) : Prop where
  server_eq : c.server = first.server
  peer_eq : c.peer = first.peer
  transcript_eq : c.transcript = first.transcript ++ events

/-- A later state of the connection `first`. -/
def Continues (first c : Connection) : Prop := ∃ events, Told first events c

variable {first c c' : Connection} {events : List FtpEvent} {line : String}

theorem Told.refl (c : Connection) : Told c [] c := ⟨rfl, rfl, (List.append_nil _).symm⟩

theorem Told.continues (h : Told first events c) : Continues first c := ⟨events, h⟩

theorem Continues.refl (c : Connection) : Continues c c := (Told.refl c).continues

theorem Continues.trans (h : Continues first c) (h' : Continues c c') : Continues first c' := by
  obtain ⟨events, h⟩ := h
  obtain ⟨more, h'⟩ := h'
  exact ⟨events ++ more, h'.server_eq.trans h.server_eq, h'.peer_eq.trans h.peer_eq,
    by rw [h'.transcript_eq, h.transcript_eq, List.append_assoc]⟩

theorem Told.tell (h : Told first events c) (event : FtpEvent) :
    Told first (events ++ [event]) (c.tell event) :=
  ⟨h.server_eq, h.peer_eq, by rw [Connection.tell, h.transcript_eq, List.append_assoc]⟩

/-- Nothing is told by hearing a reply. -/
theorem Told.hear (h : Told first events c) (r : WireReply) (owed : List WireReply) :
    Told first events (c.hear r owed) :=
  ⟨h.server_eq, h.peer_eq, h.transcript_eq⟩

/-- A later state of the connection `first`, whose server was told these events since, and perhaps
one more. -/
def ToldAtMost (first : Connection) (events : List FtpEvent) (event : FtpEvent) (c : Connection) :
    Prop :=
  Told first events c ∨ Told first (events ++ [event]) c

theorem ToldAtMost.continues {event : FtpEvent} (h : ToldAtMost first events event c) :
    Continues first c := h.elim Told.continues Told.continues

/-! ## Commands and replies -/

theorem readReply_told : Meets (Told first events) readReply
    (fun _ => Told first events) (Told first events) := by
  intro c h
  rw [readReply]
  cases FtpReply.read (c.server.silence c.transcript) c.unread with
  | mk result rest => cases result <;> exact ⟨h.server_eq, h.peer_eq, h.transcript_eq⟩

theorem send_told (line : String) : Meets (Told first events) (send line)
    (fun _ => Told first (events ++ [asked line])) (Told first events) := by
  intro c h
  rw [send]
  by_cases pending : c.state = .awaitingReply
  · rw [if_pos pending]
    exact h
  · rw [if_neg pending]
    cases c.server.blocked c.transcript with
    | some cause => exact h
    | none => exact h.tell (asked line)

theorem command_told (line : String) : Meets (Told first events) (command line)
    (fun _ => Told first (events ++ [asked line])) (ToldAtMost first events (asked line)) :=
  ((send_told line).or_fails fun _ => Or.inl).bind fun _ =>
    readReply_told.or_fails fun _ => Or.inr

theorem expect_told (line : String) (group : Nat) : Meets (Told first events) (expect line group)
    (fun _ => Told first (events ++ [asked line])) (ToldAtMost first events (asked line)) := by
  apply (command_told line).bind
  intro reply
  refine Meets.bind (Q := fun _ => Told first (events ++ [asked line])) ?_ fun _ => ?_
  · exact .ofExcept (fun _ _ _ h => h) fun _ _ _ => Or.inr
  · exact .pure fun _ h => h

/-! ## Beginning and end -/

theorem readGreeting_told (fuel : Nat) : Meets (Told first events) (readGreeting fuel)
    (fun _ => Told first events) (Told first events) := by
  induction fuel with
  | zero => exact readReply_told
  | succ fuel ih =>
    apply readReply_told.bind
    intro reply
    split
    · exact ih
    · exact .pure fun _ h => h

/-- A greeting is only listened to. -/
theorem greet_told : Meets (Told first events) greet
    (fun _ => Told first events) (Told first events) := by
  refine Meets.bind (Q := fun _ => Told first events) (.get fun _ h => h) fun c => ?_
  exact (readGreeting_told _).bind fun _ => .ofExcept (fun _ _ _ h => h) fun _ _ _ h => h

/-- What continues a connection from each of its later states continues it. -/
theorem continues_of_told {α : Type} {x : Session α}
    (h : ∀ events, Meets (Told first events) x (fun _ => Continues first) (Continues first)) :
    Meets (Continues first) x (fun _ => Continues first) (Continues first) :=
  fun c ⟨events, told⟩ => h events c told

theorem command_continues (line : String) :
    Meets (Continues first) (command line) (fun _ => Continues first) (Continues first) :=
  continues_of_told fun _ =>
    (command_told line).weaken (fun _ h => h) (fun _ _ => Told.continues) fun _ =>
      ToldAtMost.continues

theorem login_continues (username password : Option String) :
    Meets (Continues first) (login username password)
      (fun _ => Continues first) (Continues first) := by
  apply (command_continues _).bind
  intro reply
  split
  · exact .pure fun _ h => h
  · split
    · exact (command_continues _).bind fun _ => .ofExcept (fun _ _ _ h => h) fun _ _ _ h => h
    · exact .fail fun _ h => h

theorem changeDirectory_continues (directory : String) :
    Meets (Continues first) (changeDirectory directory)
      (fun _ => Continues first) (Continues first) :=
  continues_of_told fun _ =>
    ((expect_told _ 2).weaken (fun _ h => h) (fun _ _ => Told.continues) fun _ =>
      ToldAtMost.continues).discard

/-- Nothing is told while a pending reply is read. -/
theorem drain_told : Meets (Told first events) drain
    (fun _ => Told first events) (Told first events) := by
  intro c h
  rw [drain]
  by_cases idle : c.state = .idle
  · rw [if_pos idle]
    exact h
  · rw [if_neg idle]
    have read := readReply_told c h
    cases hr : readReply c with
    | mk result c' =>
      rw [hr] at read
      cases result with
      | ok reply => exact ⟨read.server_eq, read.peer_eq, read.transcript_eq⟩
      | error fault => exact read

theorem quit_told : Meets (Told first events) quit
    (fun _ => Told first (events ++ [asked "QUIT"])) (ToldAtMost first events (asked "QUIT")) :=
  (expect_told "QUIT" 2).discard

/-! ## Transfers -/

theorem dial_told (port : Nat) : Meets (Told first events) (dial port)
    (fun _ => Told first (events ++ [.dialled first.peer port]))
    (Told first (events ++ [.dialled first.peer port])) := by
  intro c h
  have told := h.tell (.dialled c.peer port)
  rw [h.peer_eq] at told
  rw [dial, h.peer_eq]
  dsimp only
  cases (c.tell (.dialled first.peer port)).server.refused
    (c.tell (.dialled first.peer port)).transcript with
  | none => exact told
  | some cause => exact told

/-- What is told to begin a transfer: the type of its data, the data connection, and the command
that uses it. -/
def beginning (peer type line : String) (port : Nat) : List FtpEvent :=
  [asked type, asked "PASV", .dialled peer port, asked line]

theorem openData_told (type line : String) : Meets (Told first (events ++ [asked type]))
    (openData line)
    (fun _ c => ∃ port, Told first (events ++ beginning first.peer type line port) c)
    (Continues first) := by
  have fails : ∀ events c, Told first events c → Continues first c := fun _ _ => Told.continues
  refine ((expect_told "PASV" 2).or_fails fun _ => ToldAtMost.continues).bind fun reply => ?_
  refine .ofExcept_bind (fun port _ => ?_) (fails _)
  refine ((dial_told port).or_fails (fails _)).bind fun _ => ?_
  refine ((command_told line).or_fails fun _ => ToldAtMost.continues).bind fun reply => ?_
  split
  · exact .pure fun _ h => ⟨port, by simpa [beginning] using h⟩
  · exact .fail (fails _)

/-- A download that was begun: its data is what the server sends now, and its reply is pending. -/
structure Downloading (first : Connection) (events : List FtpEvent) (path : String) (feed : Feed)
    (c : Connection) : Prop where
  told : ∃ port, Told first (events ++ beginning first.peer "TYPE I" ("RETR " ++ path) port) c
  awaiting : c.state = .awaitingReply
  feed_eq : feed = c.server.download c.transcript

theorem download_told (path : String) : Meets (Told first events) (download path)
    (fun feed => Downloading first events path feed) (Continues first) := by
  refine ((expect_told "TYPE I" 2).or_fails fun _ => ToldAtMost.continues).discard.bind fun _ => ?_
  refine (openData_told "TYPE I" _).bind fun _ => ?_
  rintro c ⟨port, told⟩
  exact ⟨⟨port, told.server_eq, told.peer_eq, told.transcript_eq⟩, rfl, rfl⟩

theorem readReply_continues :
    Meets (Continues first) readReply (fun _ => Continues first) (Continues first) :=
  continues_of_told fun _ =>
    readReply_told.weaken (fun _ h => h) (fun _ _ => Told.continues) fun _ => Told.continues

theorem listing_continues (directory : String) : Meets (Told first events) (listing directory)
    (fun _ => Continues first) (Continues first) := by
  refine ((expect_told "TYPE A" 2).or_fails fun _ => ToldAtMost.continues).discard.bind fun _ => ?_
  refine (openData_told "TYPE A" _).bind fun _ => ?_
  refine Meets.bind (Q := fun _ => Continues first) ?_ fun _ => ?_
  · exact .get fun c ⟨port, told⟩ => told.continues
  refine .ofExcept_bind (fun names _ => ?_) fun _ h => h
  refine readReply_continues.bind fun reply => ?_
  refine Meets.bind (Q := fun _ => Continues first) ?_ fun _ => .pure fun _ h => h
  exact .ofExcept (fun _ _ _ h => h) fun _ _ _ h => h

/-- What goes up a data connection is what was taken, in order. -/
theorem uplink_appends (server : FtpServer) (t : Transcript) : (uplink server t).Appends id where
  write s bytes n s' h := by
    -- As much is held as is reported, whether or not the write was interrupted first.
    have first : s ++ bytes.take (bytes.take (server.accepts t s bytes)).length =
        s ++ bytes.take (server.accepts t s bytes) := by
      simp [List.take_eq_take_min]
    simp only [uplink] at h
    split at h
    · cases h
      exact first.symm
    · split at h
      · cases h
        exact first.symm
      · cases h
  interrupted s bytes cause s' h hi := by
    simp only [uplink] at h
    split at h
    · cases h
    · split at h
      · cases h
      · cases h
        rfl
  flush s s' h := by
    cases h
    rfl

/-- An upload that succeeds has sent the whole feed, up to its end. -/
theorem upload_told (name : String) (feed : Feed) :
    Meets (fun s => s.1 = feed ∧ Told first events s.2) (upload name)
      (fun _ s => feed.IsSound ∧ ∃ port, Told first (events ++
        beginning first.peer "TYPE I" ("STOR " ++ name) port ++
          [.uploaded (Listing.received feed).1]) s.2)
      (fun s => Continues first s.2) := by
  refine ((beside_meets (· = feed) (expect_told "TYPE I" 2)).or_fails fun _ h =>
    h.2.continues).discard.bind fun _ => ?_
  refine ((beside_meets (· = feed) (openData_told "TYPE I" _)).or_fails fun _ h => h.2).bind
    fun _ => ?_
  refine Meets.bind (Q := fun s' s => s' = s ∧ s.1 = feed ∧ ∃ port, Told first
    (events ++ beginning first.peer "TYPE I" ("STOR " ++ name) port) s.2)
    (.get fun _ h => ⟨rfl, h⟩) fun s => ?_
  obtain ⟨feed', c⟩ := s
  -- The data connection is closed, whatever has become of the copy.
  refine Meets.bind (Q := fun _ s => feed' = feed ∧ ∃ port, Told first (events ++
    beginning first.peer "TYPE I" ("STOR " ++ name) port ++
      [.uploaded (copy (uplink c.server c.transcript) feed' []).sink]) s.2) ?_ fun _ => ?_
  · rintro _ ⟨rfl, same, port, told⟩
    exact ⟨same, port, told.tell _⟩
  -- Only after a copy that ended well is the dialogue continued.
  refine .ofExcept_bind (fun sent hsent => ?_) fun s ⟨_, port, told⟩ => told.continues
  obtain ⟨sound, sink⟩ := Copy.appends_of_copy (uplink_appends _ _) (mapError_eq_ok_iff.mp hsent)
  change _ = [] ++ _ at sink
  rw [← id_eq (copy _ _ _).sink, sink, List.nil_append]
  have read := Meets.exists_of_forall fun port => @readReply_told first (events ++
    beginning first.peer "TYPE I" ("STOR " ++ name) port ++
      [.uploaded (Listing.received feed').1])
  refine Meets.bind ((Meets.on (fun _ => feed' = feed) (fun _ _ => rfl) (fun _ _ h => h)
    read).or_fails fun _ ⟨_, _, told⟩ => told.continues) fun reply => ?_
  rintro s ⟨rfl, port, told⟩
  cases check "STOR" reply 2 with
  | ok _ => exact ⟨sound, port, told⟩
  | error _ => exact told.continues

end InstallMedia.Connection
