import InstallMedia.Ftp.Connection
import InstallMedia.Proofs.Attempt
import InstallMedia.Proofs.Ftp.Framing

/-!
# Uses of a control connection

A control connection is used in some order, well or not, and nothing is known about the server.
Whether it waits for a reply is what its uses so far say: it does exactly from a download that
succeeds to the next drain that does.  Meanwhile no other use does anything.

## Main definitions

* `Connection.Use`, `Connection.Use.perform`: one use of a connection
* `Connection.Offers`, `Connection.take`: a reply that stands in front of what a server has sent
* `Connection.Unhindered`: an attempt that no pending reply gets in the way of
* `Connection.History`: a connection and the outcomes of its uses so far
* `Connection.Owing`: a download that has not been drained

## Main results

* `Connection.Use.perform_of_awaiting`: what is done while a reply is pending
* `Connection.Use.perform_unhindered`: what is done while none is
* `Connection.drain_eq_ok_iff`, `Connection.drain_eq_error`: a drain reads one reply
* `Connection.History.awaiting_iff_owing`: when a reply is pending
-/

namespace InstallMedia

open Attempt (Ends)

/-- The fault of a command that was not sent because a reply is pending. -/
def FtpFault.IsPending : FtpFault → Prop
  | replyPending _ => True
  | _ => False

theorem FtpReply.not_isPending_noLine (ending : Option IoFault) :
    ¬ (FtpReply.noLine ending).IsPending := by
  cases ending <;> exact id

namespace Connection

/-! ## Uses -/

/-- One use of a connection. -/
inductive Use where
  | login (username password : Option String)
  | changeDirectory (directory : String)
  | download (path : String)
  | listing (directory : String)
  | upload (name : String)
  | drain
  | quit

namespace Use

/-- A dialogue beside which a feed is left as it is. -/
def alone {α : Type} (x : Session α) : Attempt (Feed × Connection) FtpFault α :=
  x.on (·.2) fun c s => (s.1, c)

theorem alone_of_error {α : Type} {x : Session α} {c : Connection} {fault : FtpFault}
    (h : x c = (.error fault, c)) (feed : Feed) : alone x (feed, c) = (.error fault, feed, c) := by
  rw [alone, Attempt.on_apply, h]

/-- What a use does to a connection, and to the feed that it may upload. -/
def perform : Use → Attempt (Feed × Connection) FtpFault Unit
  | login username password => discard (alone (Connection.login username password))
  | changeDirectory directory => discard (alone (Connection.changeDirectory directory))
  | download path => discard (alone (Connection.download path))
  | listing directory => discard (alone (Connection.listing directory))
  | upload name => discard (Connection.upload name)
  | drain => discard (alone Connection.drain)
  | quit => discard (alone Connection.quit)

/-- The verb of the first command of a use; a drain sends none. -/
def verb : Use → String
  | login _ _ => "USER"
  | changeDirectory _ => "CWD"
  | download _ | listing _ | upload _ => "TYPE"
  | drain => ""
  | quit => "QUIT"

/-- The state in which a use leaves a connection if it succeeds. -/
def leaves : Use → ReplyState
  | download _ => .awaitingReply
  | _ => .idle

end Use

/-! ## While a reply is pending -/

section Awaiting

variable {c : Connection} (awaiting : c.state = .awaitingReply)

include awaiting

theorem send_of_awaiting (line : String) :
    send line c = (.error (.replyPending (verb line)), c) := by
  rw [send, if_pos awaiting]

theorem command_of_awaiting (line : String) :
    command line c = (.error (.replyPending (verb line)), c) :=
  Attempt.bind_of_error (send_of_awaiting awaiting line)

theorem expect_of_awaiting (line : String) (group : Nat) :
    expect line group c = (.error (.replyPending (verb line)), c) :=
  Attempt.bind_of_error (command_of_awaiting awaiting line)

/-- While a reply is pending, every use but a drain says so and does nothing: nothing is sent, and
neither the server nor the feed is read. -/
theorem Use.perform_of_awaiting {use : Use} (not_drain : use ≠ .drain) (feed : Feed) :
    use.perform (feed, c) = (.error (.replyPending use.verb), feed, c) := by
  -- The first command of each use is refused, and nothing comes after it.
  cases use with
  | login username password =>
    have first : Connection.verb ("USER " ++ username.getD anonymousUser) = "USER" := by
      simp [Connection.verb]
    have refused := command_of_awaiting awaiting ("USER " ++ username.getD anonymousUser)
    rw [first] at refused
    exact Attempt.bind_of_error (alone_of_error (Attempt.bind_of_error refused) feed)
  | changeDirectory directory =>
    have first : Connection.verb ("CWD " ++ directory) = "CWD" := by simp [Connection.verb]
    have refused := expect_of_awaiting awaiting ("CWD " ++ directory) 2
    rw [first] at refused
    exact Attempt.bind_of_error (alone_of_error (Attempt.bind_of_error refused) feed)
  | download path =>
    have refused := expect_of_awaiting awaiting "TYPE I" 2
    apply Attempt.bind_of_error
    exact alone_of_error (Attempt.bind_of_error (Attempt.bind_of_error refused)) feed
  | listing directory =>
    have refused := expect_of_awaiting awaiting "TYPE A" 2
    apply Attempt.bind_of_error
    exact alone_of_error (Attempt.bind_of_error (Attempt.bind_of_error refused)) feed
  | upload name =>
    have refused := alone_of_error (expect_of_awaiting awaiting "TYPE I" 2) feed
    exact Attempt.bind_of_error (Attempt.bind_of_error (Attempt.bind_of_error refused))
  | drain => exact absurd rfl not_drain
  | quit =>
    have refused := expect_of_awaiting awaiting "QUIT" 2
    exact Attempt.bind_of_error (alone_of_error (Attempt.bind_of_error refused) feed)

end Awaiting

/-! ## Drains -/

/-- What the server has sent begins with a reply, after which `rest` is left. -/
def Offers (c : Connection) (reply : FtpReply) (rest : Bytes) : Prop :=
  ∃ own more, Lines.split c.unread = own ++ more ∧
    (∀ raw ∈ own, FtpReply.IsSeen (c.server.silence c.transcript) raw) ∧
    FtpReply.Framed own reply ∧ rest = more.flatten

/-- The connection after a reply was read. -/
def take (c : Connection) (reply : FtpReply) (rest : Bytes) : Connection :=
  { c with unread := rest, heard := c.heard ++ [(c.transcript.commands, reply)] }

theorem readReply_eq_ok_iff {c c' : Connection} {reply : FtpReply} :
    readReply c = (.ok reply, c') ↔ ∃ rest, c.Offers reply rest ∧ c' = c.take reply rest := by
  rw [readReply]
  cases hr : FtpReply.read (c.server.silence c.transcript) c.unread with
  | mk result rest =>
    cases result with
    | ok reply' =>
      constructor
      · intro h
        obtain ⟨rfl, rfl⟩ := Prod.mk.inj h |>.imp_left Except.ok.inj
        exact ⟨rest, FtpReply.read_eq_ok_iff.mp hr, rfl⟩
      · rintro ⟨rest', offers, rfl⟩
        rw [FtpReply.read_eq_ok_iff.mpr offers] at hr
        obtain ⟨rfl, rfl⟩ := Prod.mk.inj hr |>.imp_left Except.ok.inj
        rfl
    | error fault =>
      refine iff_of_false (by simp) ?_
      rintro ⟨rest', offers, -⟩
      rw [FtpReply.read_eq_ok_iff.mpr offers] at hr
      simp at hr

theorem readReply_eq_error {c c' : Connection} {fault : FtpFault}
    (h : readReply c = (.error fault, c')) :
    (∃ rest, c' = { c with unread := rest }) ∧ ¬ fault.IsPending := by
  rw [readReply] at h
  cases hr : FtpReply.read (c.server.silence c.transcript) c.unread with
  | mk result rest =>
    rw [hr] at h
    cases result with
    | ok reply => simp at h
    | error fault' =>
      obtain ⟨rfl, rfl⟩ := Prod.mk.inj h |>.imp_left Except.error.inj
      refine ⟨⟨rest, rfl⟩, fun pending => ?_⟩
      rcases FtpReply.read_eq_error (congrArg Prod.fst hr) with rfl | ⟨line, rfl⟩
      · exact FtpReply.not_isPending_noLine _ pending
      · exact pending

theorem drain_of_idle {c : Connection} (idle : c.state = .idle) : drain c = (.ok none, c) := by
  rw [drain, if_pos idle]

theorem drain_of_awaiting {c : Connection} (awaiting : c.state = .awaitingReply) :
    drain c = match readReply c with
      | (.ok reply, c) => (.ok (some reply), { c with state := .idle })
      | (.error fault, c) => (.error fault, c) :=
  if_neg (by simp [awaiting])

/-- A drain succeeds exactly if the server has sent a reply, and it reads this one, whatever its
code. -/
theorem drain_eq_ok_iff {c c' : Connection} (awaiting : c.state = .awaitingReply)
    {answer : Option FtpReply} :
    drain c = (.ok answer, c') ↔
      ∃ reply rest, answer = some reply ∧ c.Offers reply rest ∧
        c' = { c.take reply rest with state := .idle } := by
  rw [drain_of_awaiting awaiting]
  cases hr : readReply c with
  | mk result c₁ =>
    cases result with
    | ok reply =>
      obtain ⟨rest, offers, rfl⟩ := readReply_eq_ok_iff.mp hr
      constructor
      · intro h
        obtain ⟨rfl, rfl⟩ := Prod.mk.inj h |>.imp_left Except.ok.inj
        exact ⟨reply, rest, rfl, offers, rfl⟩
      · rintro ⟨reply', rest', rfl, offers', rfl⟩
        rw [readReply_eq_ok_iff.mpr ⟨rest', offers', rfl⟩] at hr
        obtain ⟨rfl, same⟩ := Prod.mk.inj hr |>.imp_left Except.ok.inj
        rw [same]
    | error fault =>
      refine iff_of_false (by simp) ?_
      rintro ⟨reply, rest, rfl, offers, -⟩
      rw [readReply_eq_ok_iff.mpr ⟨rest, offers, rfl⟩] at hr
      simp at hr

/-- A drain that fails leaves the reply pending. -/
theorem drain_eq_error {c c' : Connection} {fault : FtpFault} (h : drain c = (.error fault, c')) :
    c.state = .awaitingReply ∧ (∃ rest, c' = { c with unread := rest }) ∧ ¬ fault.IsPending := by
  have awaiting : c.state = .awaitingReply := by
    cases state : c.state with
    | idle =>
      rw [drain_of_idle state] at h
      simp at h
    | awaitingReply => rfl
  rw [drain_of_awaiting awaiting] at h
  cases hr : readReply c with
  | mk result c₁ =>
    rw [hr] at h
    cases result with
    | ok reply => simp at h
    | error fault' =>
      obtain ⟨rfl, rfl⟩ := Prod.mk.inj h |>.imp_left Except.error.inj
      exact ⟨awaiting, readReply_eq_error hr⟩

theorem state_of_drain {c c' : Connection} {answer : Option FtpReply}
    (h : drain c = (.ok answer, c')) : c'.state = .idle := by
  cases state : c.state with
  | idle =>
    rw [drain_of_idle state] at h
    rw [← (Prod.mk.inj h).2, state]
  | awaitingReply =>
    obtain ⟨reply, rest, -, -, rfl⟩ := (drain_eq_ok_iff state).mp h
    rfl

/-! ## While none is pending -/

/-- An attempt that no pending reply gets in the way of: success leaves an idle connection in the
state `ends`; failure leaves it idle and is not about a pending reply. -/
def Unhindered {σ α : Type} (view : σ → Connection) (x : Attempt σ FtpFault α)
    (ends : ReplyState) : Prop :=
  Ends (fun s => (view s).state = .idle) x (fun _ s => (view s).state = ends)
    fun fault s => (view s).state = .idle ∧ ¬ fault.IsPending

theorem get_unhindered {σ : Type} (view : σ → Connection) :
    Unhindered view (Attempt.get : Attempt σ FtpFault σ) .idle :=
  Ends.get fun _ idle => idle

theorem check_unhindered {σ : Type} (view : σ → Connection) (line : String) (reply : FtpReply)
    (group : Nat) : Unhindered view (Attempt.ofExcept (check line reply group)) .idle := by
  refine Ends.ofExcept (fun _ _ _ idle => idle) fun fault h _ idle => ⟨idle, ?_⟩
  rw [check] at h
  split at h
  · simp at h
  · obtain rfl := Except.error.inj h
    exact id

theorem readReply_unhindered : Unhindered id readReply .idle := by
  intro c idle
  cases hr : readReply c with
  | mk result c' =>
    cases result with
    | ok reply =>
      obtain ⟨rest, -, rfl⟩ := readReply_eq_ok_iff.mp hr
      exact idle
    | error fault =>
      obtain ⟨⟨rest, rfl⟩, not_pending⟩ := readReply_eq_error hr
      exact ⟨idle, not_pending⟩

theorem send_unhindered (line : String) : Unhindered id (send line) .idle := by
  intro c idle
  have not_awaiting : c.state ≠ .awaitingReply := by
    rw [show c.state = .idle from idle]
    simp
  rw [send, if_neg not_awaiting]
  cases c.server.blocked c.transcript with
  | none => exact idle
  | some cause => exact ⟨idle, id⟩

theorem command_unhindered (line : String) : Unhindered id (command line) .idle :=
  (send_unhindered line).bind fun _ => readReply_unhindered

theorem expect_unhindered (line : String) (group : Nat) :
    Unhindered id (expect line group) .idle :=
  (command_unhindered line).bind fun reply =>
    (check_unhindered id line reply group).bind_pure fun _ => reply

theorem unexpected_unhindered {α : Type} (line : String) (reply : FtpReply) :
    Unhindered id (Attempt.fail (unexpected line reply) : Session α) .idle :=
  Ends.fail fun _ idle => ⟨idle, id⟩

theorem readGreeting_unhindered (fuel : Nat) : Unhindered id (readGreeting fuel) .idle := by
  induction fuel with
  | zero => exact readReply_unhindered
  | succ fuel ih =>
    apply readReply_unhindered.bind
    intro reply
    split
    · exact ih
    · exact Ends.pure fun _ idle => idle

theorem greet_unhindered : Unhindered id greet .idle := by
  apply (get_unhindered id).bind
  intro c
  exact (readGreeting_unhindered _).bind fun reply => check_unhindered id _ reply 2

theorem login_unhindered (username password : Option String) :
    Unhindered id (login username password) .idle := by
  apply (command_unhindered _).bind
  intro reply
  split
  · exact Ends.pure fun _ idle => idle
  · split
    · exact (command_unhindered _).bind fun reply => check_unhindered id _ reply 2
    · exact unexpected_unhindered _ reply

theorem changeDirectory_unhindered (directory : String) :
    Unhindered id (changeDirectory directory) .idle :=
  (expect_unhindered _ 2).discard

theorem quit_unhindered : Unhindered id quit .idle := (expect_unhindered _ 2).discard

theorem dial_unhindered (port : Nat) : Unhindered id (dial port) .idle := by
  intro c idle
  rw [dial]
  dsimp only
  cases (c.tell (.dialled c.peer port)).server.refused
      (c.tell (.dialled c.peer port)).transcript with
  | none => exact idle
  | some cause => exact ⟨idle, id⟩

theorem openData_unhindered (line : String) : Unhindered id (openData line) .idle := by
  apply (expect_unhindered "PASV" 2).bind
  intro reply
  refine Ends.ofExcept_bind (fun port _ => ?_) fun fault h c idle => ⟨idle, ?_⟩
  · apply (dial_unhindered port).bind
    intro _
    apply (command_unhindered line).bind
    intro reply
    split
    · exact Ends.pure fun _ idle => idle
    · exact unexpected_unhindered line reply
  · rw [Passive.port] at h
    split at h
    · simp at h
    · obtain rfl := Except.error.inj h
      exact id

theorem download_unhindered (path : String) : Unhindered id (download path) .awaitingReply := by
  apply (expect_unhindered "TYPE I" 2).discard.bind
  intro _
  apply (openData_unhindered _).bind
  intro _ c _
  rfl

/-- What goes wrong with the data of a transfer is not about a reply. -/
theorem not_isPending_of_data {α : Type} {x : Except IoFault α} {fault : FtpFault}
    (h : x.mapError FtpFault.io = .error fault) : ¬ fault.IsPending := by
  obtain ⟨cause, -, rfl⟩ := mapError_eq_error_iff.mp h
  exact id

theorem listing_unhindered (directory : String) : Unhindered id (listing directory) .idle := by
  apply (expect_unhindered "TYPE A" 2).discard.bind
  intro _
  apply (openData_unhindered _).bind
  intro _
  apply (get_unhindered id).bind
  intro c
  refine Ends.ofExcept_bind (fun names _ => ?_) fun fault h _ idle =>
    ⟨idle, not_isPending_of_data h⟩
  apply readReply_unhindered.bind
  intro reply
  exact (check_unhindered id _ reply 2).bind_pure fun _ => names

theorem Unhindered.alone {α : Type} {x : Session α} {ends : ReplyState} (h : Unhindered id x ends) :
    Unhindered (·.2) (Use.alone x) ends :=
  Ends.part (fun _ _ => rfl) h

theorem upload_unhindered (name : String) : Unhindered (·.2) (upload name) .idle := by
  apply (expect_unhindered "TYPE I" 2).alone.discard.bind
  intro _
  apply (openData_unhindered _).alone.bind
  rintro _ ⟨feed, c⟩ idle
  -- That the data has ended is told without a command.
  have ending : ∀ y : Except IoFault Nat, Unhindered (·.2)
      (do
        let sent ← Attempt.ofExcept (y.mapError FtpFault.io)
        let reply ← Use.alone readReply
        Use.alone (Attempt.ofExcept (check "STOR" reply 2))
        return sent) .idle := by
    intro y
    refine Ends.ofExcept_bind (fun sent _ => ?_) fun fault h _ idle =>
      ⟨idle, not_isPending_of_data h⟩
    apply readReply_unhindered.alone.bind
    intro reply
    exact (check_unhindered id _ reply 2).alone.bind_pure fun _ => sent
  exact ending _ (_, c.tell _) idle

/-- While no reply is pending, a use leaves a connection idle, unless it is a download that
succeeds. -/
theorem Use.perform_unhindered (use : Use) : Unhindered (·.2) use.perform use.leaves := by
  cases use with
  | login username password => exact (login_unhindered username password).alone.discard
  | changeDirectory directory => exact (changeDirectory_unhindered directory).alone.discard
  | download path => exact (download_unhindered path).alone.discard
  | listing directory => exact (listing_unhindered directory).alone.discard
  | upload name => exact (upload_unhindered name).discard
  | drain =>
    have nothing : Unhindered id Connection.drain .idle := by
      intro c idle
      rw [drain_of_idle (c := c) idle]
      exact idle
    exact nothing.alone.discard
  | quit => exact quit_unhindered.alone.discard

/-! ## Histories -/

/-- A use and its outcome. -/
abbrev Step := Use × Except FtpFault Unit

/-- What has come of a connection by its uses so far, each with its outcome; a feed lies ready for
each of them. -/
inductive History (first : Connection) : List Step → Connection → Prop where
  | nil : History first [] first
  | snoc {past : List Step} {c : Connection} (before : History first past c) (use : Use)
      (feed : Feed) :
      History first (past ++ [(use, (use.perform (feed, c)).1)]) (use.perform (feed, c)).2.2

/-- The last download that succeeded has not been followed by a drain that did. -/
def Owing (past : List Step) : Prop :=
  ∃ before path after, past = before ++ (.download path, .ok ()) :: after ∧
    (∀ path, (.download path, .ok ()) ∉ after) ∧ (.drain, .ok ()) ∉ after

theorem not_owing_nil : ¬ Owing [] := by
  rintro ⟨before, path, after, h, -⟩
  simp at h

theorem owing_concat_iff {past : List Step} {step : Step} :
    Owing (past ++ [step]) ↔
      (∃ path, step = (.download path, .ok ())) ∨ Owing past ∧ step ≠ (.drain, .ok ()) := by
  constructor
  · rintro ⟨before, path, after, h, last, not_drained⟩
    rcases List.eq_nil_or_concat after with rfl | ⟨after, final, rfl⟩
    · left
      have := (List.append_inj' h (by simp)).2
      exact ⟨path, by simpa using this⟩
    · right
      rw [List.concat_eq_append, ← List.cons_append, ← List.append_assoc] at h
      obtain ⟨rfl, same⟩ := List.append_inj' h rfl
      obtain rfl : step = final := by simpa using same
      refine ⟨⟨before, path, after, rfl, fun path' h' => last path' (by simp [h']),
        fun h' => not_drained (by simp [h'])⟩, ?_⟩
      rintro rfl
      simp at not_drained
  · rintro (⟨path, rfl⟩ | ⟨⟨before, path, after, rfl, last, not_drained⟩, not_drain⟩)
    · exact ⟨past, path, [], rfl, by simp, by simp⟩
    · by_cases again : ∃ path, step = (.download path, .ok ())
      · obtain ⟨path', rfl⟩ := again
        exact ⟨_, path', [], rfl, by simp, by simp⟩
      · refine ⟨before, path, after ++ [step], by simp, fun path' h' => ?_, fun h' => ?_⟩
        · rcases List.mem_append.mp h' with h' | h'
          · exact last path' h'
          · exact again ⟨path', (List.mem_singleton.mp h').symm⟩
        · rcases List.mem_append.mp h' with h' | h'
          · exact not_drained h'
          · exact not_drain (List.mem_singleton.mp h').symm

/-- A reply is pending after a use if it is a download that succeeds, or if one was pending before
and it is no drain that succeeds. -/
theorem Use.awaiting_perform_iff (use : Use) (feed : Feed) (c : Connection) :
    (use.perform (feed, c)).2.2.state = .awaitingReply ↔
      (∃ path, (use, (use.perform (feed, c)).1) = (.download path, .ok ())) ∨
        c.state = .awaitingReply ∧ (use, (use.perform (feed, c)).1) ≠ (.drain, .ok ()) := by
  cases state : c.state with
  -- Only a download that succeeds makes an idle connection wait.
  | idle =>
    have ended := use.perform_unhindered (feed, c) state
    cases hp : use.perform (feed, c) with
    | mk result s' =>
      rw [hp] at ended
      cases result with
      | ok _ =>
        dsimp only at ended
        rw [ended]
        cases use <;> simp [leaves]
      | error fault => simp [ended.1]
  -- Only a drain does anything to one that waits, and it reads the reply or leaves it pending.
  | awaitingReply =>
    by_cases drain : use = .drain
    · subst drain
      rw [perform, Attempt.discard_apply, alone, Attempt.on_apply]
      cases hd : Connection.drain c with
      | mk result c' =>
        cases result with
        | ok answer =>
          obtain ⟨reply, rest, -, -, rfl⟩ := (drain_eq_ok_iff state).mp hd
          simp [Except.map]
        | error fault =>
          obtain ⟨-, ⟨rest, rfl⟩, -⟩ := drain_eq_error hd
          simp [Except.map, state]
    · rw [use.perform_of_awaiting state drain feed]
      simp [state]

/-- **When a reply is pending**: whatever the server sends, exactly if the last download that
succeeded has not been followed by a drain that did. -/
theorem History.awaiting_iff_owing {first c : Connection} {past : List Step}
    (idle : first.state = .idle) (h : History first past c) :
    c.state = .awaitingReply ↔ Owing past := by
  -- Both sides change with the last use in the same way.
  induction h with
  | nil => exact iff_of_false (by simp [idle]) not_owing_nil
  | snoc before use feed ih => rw [use.awaiting_perform_iff, owing_concat_iff, ih]

end Connection

end InstallMedia
