import InstallMedia.Proofs.Ftp.Session

/-!
# What a site is told

Every call has a script: the commands that it may send, with its decoded arguments.  Whatever the
servers answer, a call sends some of its script, in order, and nothing else.  Commands are not
looked at before they are sent, so the lines that a server receives are these commands exactly when
no argument has a line feed.

## Main definitions

* `Transcript.said`: the bytes that a server has received on the control connection
* `Attempt.Speaks`: an attempt that sends some of a script
* `FtpSource.script`: the commands of a call

## Main results

* `FtpSource.perform_speaks`: a call sends some of its script, whatever is answered
* `FtpSource.received_lines_iff`: when the lines received are the commands sent
-/

namespace InstallMedia

open Connection (wire)

/-- What a server receives on the control connection with one event. -/
def FtpEvent.said : FtpEvent → Bytes
  | .sent bytes => bytes
  | _ => []

/-- What a server has received on the control connection. -/
def Transcript.said (t : Transcript) : Bytes := t.flatMap FtpEvent.said

@[simp] theorem Transcript.said_concat (t : Transcript) (event : FtpEvent) :
    said (t ++ [event]) = said t ++ event.said := by
  simp [said]

namespace Attempt

variable {σ τ ε ε' α β : Type}

/-- An attempt after which some commands of a script, in its order, have been sent besides what had
been `said`. -/
def Speaks (said : σ → Bytes) (x : Attempt σ ε α) (script : List String) : Prop :=
  ∀ s, ∃ commands : List String, commands.Sublist script ∧
    said (x s).2 = said s ++ commands.flatMap wire

namespace Speaks

variable {said : σ → Bytes} {x : Attempt σ ε α} {script more : List String}

theorem silent (h : ∀ s, said (x s).2 = said s) : Speaks said x [] :=
  fun s => ⟨[], .refl [], by rw [h s, List.flatMap_nil, List.append_nil]⟩

theorem said_eq (h : Speaks said x []) (s : σ) : said (x s).2 = said s := by
  obtain ⟨commands, hc, hsaid⟩ := h s
  obtain rfl := List.sublist_nil.mp hc
  rw [hsaid, List.flatMap_nil, List.append_nil]

theorem weaken (h : Speaks said x script) (hs : script.Sublist more) : Speaks said x more := by
  intro s
  obtain ⟨commands, hc, hsaid⟩ := h s
  exact ⟨commands, hc.trans hs, hsaid⟩

theorem pure (a : α) : Speaks said (Pure.pure a : Attempt σ ε α) [] := silent fun _ => rfl

theorem fail (e : ε) : Speaks said (Attempt.fail e : Attempt σ ε α) [] := silent fun _ => rfl

theorem ofExcept (y : Except ε α) : Speaks said (Attempt.ofExcept y) [] := silent fun _ => rfl

theorem get : Speaks said (Attempt.get : Attempt σ ε σ) [] := silent fun _ => rfl

/-- One attempt after another: what the second one sends comes after what the first one sends. -/
theorem bind {f : α → Attempt σ ε β} (hx : Speaks said x script)
    (hf : ∀ a, Speaks said (f a) more) : Speaks said (x >>= f) (script ++ more) := by
  intro s
  obtain ⟨first, hfirst, hsaid⟩ := hx s
  rw [bind_apply]
  cases h : x s with
  | mk result s' =>
    rw [h] at hsaid
    cases result with
    | error e => exact ⟨first, hfirst.trans (List.sublist_append_left _ _), hsaid⟩
    | ok a =>
      obtain ⟨second, hsecond, hsaid'⟩ := hf a s'
      refine ⟨first ++ second, hfirst.append hsecond, ?_⟩
      dsimp only
      rw [hsaid', hsaid, List.flatMap_append, List.append_assoc]

/-- After an attempt that sends nothing, the script is that of what follows. -/
theorem bind_silent {f : α → Attempt σ ε β} (hx : Speaks said x [])
    (hf : ∀ a, Speaks said (f a) script) : Speaks said (x >>= f) script := by
  have := bind hx hf
  rwa [List.nil_append] at this

/-- After an outcome known beforehand, only its value matters. -/
theorem ofExcept_bind {y : Except ε α} {f : α → Attempt σ ε β}
    (h : ∀ a, y = .ok a → Speaks said (f a) script) :
    Speaks said (Attempt.ofExcept y >>= f) script := by
  cases y with
  | ok a => exact h a rfl
  | error e => exact fun s => ⟨[], List.nil_sublist _, by simp [bind_apply]⟩

/-- Before an attempt that sends nothing, the script is that of what came before. -/
theorem silent_after {f : α → Attempt σ ε β} (hx : Speaks said x script)
    (hf : ∀ a, Speaks said (f a) []) : Speaks said (x >>= f) script := by
  have := bind hx hf
  rwa [List.append_nil] at this

theorem discard (h : Speaks said x script) : Speaks said (Functor.discard x) script :=
  h.silent_after fun _ => pure ()

theorem mapError {f : ε → ε'} (h : Speaks said x script) : Speaks said (x.mapError f) script := h

/-- On a part of a state, beside which `rest` was said. -/
theorem on {said' : τ → Bytes} {x : Attempt τ ε α} {view : σ → τ} {put : τ → σ → σ}
    (rest : σ → Bytes) (hview : ∀ s, said s = rest s ++ said' (view s))
    (hput : ∀ t s, said (put t s) = rest s ++ said' t) (h : Speaks said' x script) :
    Speaks said (x.on view put) script := by
  intro s
  obtain ⟨commands, hc, hsaid⟩ := h (view s)
  refine ⟨commands, hc, ?_⟩
  rw [on_apply, hput, hsaid, hview, List.append_assoc]

end Speaks

end Attempt

open Attempt (Speaks)

/-! ## Dialogues -/

namespace Connection

/-- What the server has received on a connection. -/
def said (c : Connection) : Bytes := c.transcript.said

theorem said_tell (c : Connection) (event : FtpEvent) :
    (c.tell event).said = c.said ++ event.said := Transcript.said_concat _ _

theorem readReply_speaks : Speaks said readReply [] := by
  apply Speaks.silent
  intro c
  rw [readReply]
  split <;> rfl

theorem send_speaks (line : String) : Speaks said (send line) [line] := by
  intro c
  rw [send]
  split
  · exact ⟨[], List.nil_sublist _, by simp⟩
  · split
    · exact ⟨[], List.nil_sublist _, by simp⟩
    · exact ⟨[line], .refl _, by simp [said_tell, FtpEvent.said, wire]⟩

theorem command_speaks (line : String) : Speaks said (command line) [line] :=
  (send_speaks line).silent_after fun _ => readReply_speaks

theorem expect_speaks (line : String) (group : Nat) : Speaks said (expect line group) [line] :=
  (command_speaks line).silent_after fun _ => (Speaks.ofExcept _).silent_after fun _ => .pure _

theorem readGreeting_speaks (fuel : Nat) : Speaks said (readGreeting fuel) [] := by
  induction fuel with
  | zero => exact readReply_speaks
  | succ fuel ih =>
    apply readReply_speaks.bind_silent
    intro reply
    split
    · exact ih
    · exact .pure _

theorem greet_speaks : Speaks said greet [] :=
  Speaks.get.bind_silent fun _ => (readGreeting_speaks _).bind_silent fun _ => .ofExcept _

/-- The commands of a login. -/
def loginScript (username password : Option String) : List String :=
  ["USER " ++ username.getD anonymousUser,
    "PASS " ++ passwordFor (username.getD anonymousUser) password]

theorem login_speaks (username password : Option String) :
    Speaks said (login username password) (loginScript username password) := by
  apply (command_speaks _).bind
  intro reply
  split
  · exact (Speaks.pure _).weaken (List.nil_sublist _)
  · split
    · exact (command_speaks _).silent_after fun _ => .ofExcept _
    · exact (Speaks.fail _).weaken (List.nil_sublist _)

theorem changeDirectory_speaks (directory : String) :
    Speaks said (changeDirectory directory) ["CWD " ++ directory] :=
  (expect_speaks _ 2).discard

theorem drain_speaks : Speaks said drain [] := by
  apply Speaks.silent
  intro c
  rw [drain]
  split
  · rfl
  · rw [← readReply_speaks.said_eq c]
    cases readReply c with
    | mk result c' => cases result <;> rfl

theorem quit_speaks : Speaks said quit ["QUIT"] := (expect_speaks _ 2).discard

theorem dial_speaks (port : Nat) : Speaks said (dial port) [] := by
  apply Speaks.silent
  intro c
  simp only [dial]
  split <;> simp [said_tell, FtpEvent.said]

theorem openData_speaks (line : String) : Speaks said (openData line) ["PASV", line] := by
  apply (expect_speaks "PASV" 2).bind
  intro reply
  apply (Speaks.ofExcept _).bind_silent
  intro port
  apply (dial_speaks port).bind_silent
  intro _
  apply (command_speaks line).silent_after
  intro reply
  split
  · exact .pure _
  · exact .fail _

theorem download_speaks (path : String) :
    Speaks said (download path) ["TYPE I", "PASV", "RETR " ++ path] := by
  apply (expect_speaks "TYPE I" 2).discard.bind
  intro _
  apply (openData_speaks _).silent_after
  intro _
  exact (Speaks.silent fun _ => rfl).bind_silent fun _ => Speaks.get.silent_after fun _ => .pure _

theorem listing_speaks (directory : String) :
    Speaks said (listing directory) ["TYPE A", "PASV", listingCommand directory] := by
  apply (expect_speaks "TYPE A" 2).discard.bind
  intro _
  apply (openData_speaks _).silent_after
  intro _
  refine Speaks.get.bind_silent fun _ => (Speaks.ofExcept _).bind_silent fun _ => ?_
  exact readReply_speaks.bind_silent fun _ => (Speaks.ofExcept _).bind_silent fun _ => .pure _

/-- A dialogue beside which nothing is said. -/
theorem beside_speaks {σ α : Type} {x : Session α} {script : List String}
    (h : Speaks said x script) :
    Speaks (fun s : σ × Connection => s.2.said) (x.on (·.2) fun c s => (s.1, c)) script :=
  .on (fun _ => []) (fun _ => rfl) (fun _ _ => rfl) h

theorem upload_speaks (name : String) :
    Speaks (fun s => s.2.said) (upload name) ["TYPE I", "PASV", "STOR " ++ name] := by
  apply (beside_speaks (expect_speaks "TYPE I" 2)).discard.bind
  intro _
  refine (beside_speaks (openData_speaks _)).silent_after fun _ => .silent fun s => ?_
  obtain ⟨feed, c⟩ := s
  -- The end of the data is told, which is nothing on the control connection.
  have told : ∀ bytes, (c.tell (.uploaded bytes)).said = c.said := by
    simp [said_tell, FtpEvent.said]
  have ending : ∀ y : Except FtpFault Nat, Speaks (fun s : Feed × Connection => s.2.said)
      (do
        let sent ← Attempt.ofExcept y
        let reply ← readReply.on (·.2) fun c s => (s.1, c)
        (Attempt.ofExcept (check "STOR" reply 2)).on (·.2) fun c s => (s.1, c)
        return sent) [] := fun y =>
    (Speaks.ofExcept y).bind_silent fun _ => (beside_speaks readReply_speaks).bind_silent fun _ =>
      (beside_speaks (.ofExcept _)).bind_silent fun _ => .pure _
  exact ((ending _).said_eq _).trans (told _)

end Connection

namespace FtpSource

/-! ## Calls -/

/-- What the server has received in the session that is not over. -/
def said (s : FtpSource) : Bytes := s.session.resource?.elim [] Connection.said

theorem said_of_held {s : FtpSource} {c : Connection} {others : Nat}
    (held : s.session = .held c others) : s.said = c.said := by
  rw [said, held]
  rfl

theorem said_of_idle {s : FtpSource} (idle : s.session = .idle) : s.said = [] := by
  rw [said, idle]
  rfl

@[simp] theorem said_session_held (s : FtpSource) (c : Connection) (others : Nat) :
    said { s with session := .held c others } = c.said := rfl

@[simp] theorem said_session_idle (s : FtpSource) : said { s with session := .idle } = [] := rfl

/-- What the servers of all sessions have received, in order. -/
def received (s : FtpSource × World) : Bytes := s.2.ended.flatMap Connection.said ++ s.1.said

/-- The commands that begin a session. -/
def openingScript (a : Address) : List String :=
  match a.decodedUsername, a.decodedPassword with
  | .ok username, .ok password =>
    Connection.loginScript username password ++
      match a.decodedDirectory with
      | .ok directory => if directory = "" then [] else ["CWD " ++ directory]
      | .error _ => []
  | _, _ => []

/-- The commands of an operation on a name that can be decoded. -/
def nameScript (name : String) (commands : String → List String) : List String :=
  match percentDecode name with
  | .ok path => commands path
  | .error _ => []

/-- The commands that a call may send, in order. -/
def script (a : Address) : Call → List String
  | .start => openingScript a
  | .finish => ["QUIT"]
  | .openFile name => nameScript name fun path => ["TYPE I", "PASV", "RETR " ++ path]
  | .has name => nameScript name fun path =>
    ["TYPE A", "PASV", Connection.listingCommand (place path).1]
  | .store name _ => nameScript name fun path => ["TYPE I", "PASV", "STOR " ++ path]

theorem opening_speaks (a : Address) : Speaks Connection.said (opening a) (openingScript a) := by
  apply Connection.greet_speaks.mapError.bind_silent
  intro _
  refine .ofExcept_bind fun username hu => .ofExcept_bind fun password hp => ?_
  rw [openingScript, hu, hp]
  apply (Connection.login_speaks username password).mapError.bind
  intro _
  refine .ofExcept_bind fun directory hd => ?_
  rw [hd]
  by_cases empty : directory = ""
  · simpa [empty] using Speaks.pure ()
  · simpa [empty] using (Connection.changeDirectory_speaks directory).mapError

theorem closing_speaks : Speaks Connection.said closing ["QUIT"] :=
  Connection.drain_speaks.discard.bind_silent fun _ => Connection.quit_speaks

theorem onIdle_speaks {σ α : Type} (name : String) {x : Attempt (σ × Connection) SourceError α}
    {script : List String} (h : Speaks (fun p => p.2.said) x script) :
    Speaks (fun p : σ × FtpSource => p.2.said) (onIdle name x) script := by
  rintro ⟨a, s⟩
  rw [onIdle]
  cases held : s.session with
  | idle => exact ⟨[], List.nil_sublist _, by simp⟩
  | held c others =>
    -- Reading a pending reply says nothing.
    have drained := Connection.drain_speaks.said_eq c
    dsimp only
    cases hd : Connection.drain c with
    | mk result c₁ =>
      rw [hd] at drained
      have before : s.said = c₁.said := (said_of_held held).trans drained.symm
      cases result with
      | error fault =>
        refine ⟨[], List.nil_sublist _, ?_⟩
        rw [said_session_held, before, List.flatMap_nil, List.append_nil]
      | ok reply =>
        obtain ⟨commands, hc, hsaid⟩ := h (a, c₁)
        refine ⟨commands, hc, ?_⟩
        rw [said_session_held, before]
        exact hsaid

theorem dialogue_speaks {α : Type} {x : Session α} {script : List String}
    (h : Speaks Connection.said x script) (f : FtpFault → SourceError) :
    Speaks (fun p => p.2.said) (dialogue x f) script :=
  Speaks.on (fun _ => []) (fun _ => rfl) (fun _ _ => rfl) h.mapError

theorem beside_speaks {α : Type} {x : Attempt (Unit × FtpSource) SourceError α}
    {script : List String} (h : Speaks (fun p => p.2.said) x script) :
    Speaks received (beside x) script :=
  .on (fun s => s.2.ended.flatMap Connection.said) (fun _ => rfl) (fun _ _ => rfl) h

/-- An operation on a name sends some of its script, or nothing if the name cannot be decoded. -/
theorem nameScript_speaks {σ α : Type} {said : σ → Bytes} {name : String}
    {x : String → Attempt σ SourceError α} {commands : String → List String}
    (h : ∀ path, Speaks said (x path) (commands path)) :
    Speaks said (Attempt.ofExcept (percentDecode name) >>= x) (nameScript name commands) := by
  refine .ofExcept_bind fun path hp => ?_
  rw [nameScript, hp]
  exact h path

theorem openFile_speaks (a : Address) (name : String) :
    Speaks received (openFile name) (script a (.openFile name)) :=
  beside_speaks <| onIdle_speaks name <| nameScript_speaks fun path =>
    (dialogue_speaks (Connection.download_speaks path) _).silent_after fun _ => .pure _

theorem listed_speaks (a : Address) (name : String) :
    Speaks received (listed name) (script a (.has name)) :=
  beside_speaks <| onIdle_speaks name <| nameScript_speaks fun _ =>
    (dialogue_speaks (Connection.listing_speaks _) _).silent_after fun _ => .pure _

theorem upload_speaks (a : Address) (name : String) (stream : Stream) :
    Speaks (fun p => p.2.said) (upload name) (script a (.store name stream)) :=
  onIdle_speaks name <| nameScript_speaks fun path =>
    (Connection.upload_speaks path).mapError.discard

theorem store_speaks (a : Address) (name : String) (stream : Stream) (s : FtpSource × World) :
    ∃ commands : List String, commands.Sublist (script a (.store name stream)) ∧
      received (Source.store name (stream, s)).2.2 = received s ++ commands.flatMap wire := by
  obtain ⟨s, w⟩ := s
  rw [store_snd]
  by_cases readOnly : s.readOnly = true
  · exact ⟨[], List.nil_sublist _, by simp [readOnly]⟩
  · obtain ⟨commands, hc, hsaid⟩ := upload_speaks a name stream (stream.contents w.files, s)
    refine ⟨commands, hc, ?_⟩
    dsimp only at hsaid
    rw [if_neg readOnly, received, received, hsaid, List.append_assoc]

/-! ## Beginning and end of a session -/

/-- A connection that is ended has still said what it said. -/
theorem received_hangUp (s : FtpSource) (c : Connection) (w : World) :
    received ({ s with session := .idle }, w.hangUp c) =
      w.ended.flatMap Connection.said ++ c.said := by
  rw [received, said_session_idle, World.hangUp]
  simp

theorem start_speaks (s : FtpSource × World) :
    ∃ commands : List String, commands.Sublist (openingScript s.1.address) ∧
      received (start s).2 = received s ++ commands.flatMap wire := by
  obtain ⟨s, w⟩ := s
  have started := starts s w
  generalize start (s, w) = outcome at started
  -- A new connection has said nothing yet.
  have fresh (server : FtpServer) (host : String) : (Connection.fresh server host).said = [] := rfl
  cases started with
  | again c others more held =>
    exact ⟨[], List.nil_sublist _, by simp [received, said_of_held held]⟩
  | refused dialled cause idle =>
    exact ⟨[], List.nil_sublist _, by simp [received, said_of_idle idle]⟩
  | opened dialled past host port server c idle found spoke =>
    obtain ⟨commands, hc, hsaid⟩ := opening_speaks s.address (.fresh server host)
    rw [spoke, fresh, List.nil_append] at hsaid
    exact ⟨commands, hc, by simp [received, said_of_idle idle, hsaid]⟩
  | failed dialled past host port server c e idle found spoke =>
    obtain ⟨commands, hc, hsaid⟩ := opening_speaks s.address (.fresh server host)
    rw [spoke, fresh, List.nil_append] at hsaid
    refine ⟨commands, hc, ?_⟩
    rw [received_hangUp, hsaid, received, said_of_idle idle, List.append_nil]

theorem finish_speaks (s : FtpSource × World) :
    ∃ commands : List String, commands.Sublist ["QUIT"] ∧
      received (finish s).2 = received s ++ commands.flatMap wire := by
  obtain ⟨s, w⟩ := s
  have finished := finishes s w
  generalize finish (s, w) = outcome at finished
  cases finished with
  | unheld idle => exact ⟨[], List.nil_sublist _, by simp [received, said_of_idle idle]⟩
  | last c held =>
    obtain ⟨commands, hc, hsaid⟩ := closing_speaks c
    refine ⟨commands, hc, ?_⟩
    rw [received_hangUp, hsaid, received, said_of_held held, List.append_assoc]
  | others c left held =>
    exact ⟨[], List.nil_sublist _, by simp [received, said_of_held held]⟩

/-- A call sends some of its script, in order, and nothing else. -/
theorem perform_speaks (call : Call) (s : FtpSource × World) :
    ∃ commands : List String, commands.Sublist (script s.1.address call) ∧
      received (call.perform s).2 = received s ++ commands.flatMap wire := by
  cases call with
  | start => exact start_speaks s
  | finish => exact finish_speaks s
  | openFile name =>
    exact openFile_speaks s.1.address name s
  | has name =>
    change ∃ commands : List String, _ ∧ received (Source.has name s).2 = _
    rw [has_snd]
    exact listed_speaks s.1.address name s
  | store name stream => exact store_speaks s.1.address name stream s

/-! ## Lines -/

theorem wire_eq : wire = fun command => (Utf8.encode command ++ [0x0D]) ++ [Lines.feed] := by
  funext command
  simp [wire, Connection.lineEnd, Lines.feed]

/-- **What a call sends are the lines of its commands exactly when no command has a line feed.**
Whatever the state and the servers, a call sends some commands of its script, in order, with the
whole decoded arguments, and nothing else.  No command is looked at before it is sent. -/
theorem received_lines_iff (call : Call) (s : FtpSource × World) :
    ∃ commands : List String, commands.Sublist (script s.1.address call) ∧
      received (call.perform s).2 = received s ++ commands.flatMap wire ∧
      (Lines.split (commands.flatMap wire) = commands.map wire ↔
        ∀ command ∈ commands, '\n' ∉ command.toList) := by
  obtain ⟨commands, hc, hreceived⟩ := perform_speaks call s
  refine ⟨commands, hc, hreceived, ?_⟩
  rw [wire_eq, Lines.split_flatMap_iff]
  refine forall₂_congr fun command _ => ?_
  rw [← Lines.feed_notMem_encode]
  simp [Lines.feed]

/-- A name with a line end makes a site that is only read delete a file. -/
theorem deletes_at_mirror :
    let s : FtpSource × World := ({ startedMirror [] with readOnly := true }, .obliging [])
    let call : Call := .openFile "x%0D%0ADELE%20y"
    script s.1.address call = ["TYPE I", "PASV", "RETR x\r\nDELE y"] ∧
      Lines.split (received (call.perform s).2) =
        ["TYPE I", "PASV", "RETR x", "DELE y"].map wire := by
  decide +kernel

end FtpSource

end InstallMedia
