import InstallMedia.Proofs.Ftp.Hearing

/-!
# Names that are missing

A name is reported as not found when the server says, to any command of its download, that a file is
not available.  The command for the download itself is only the last of three; the answers to the
type of the data and to `PASV` are not told from the answer to it.

## Main definitions

* `Connection.AnsweredWith`: a connection whose last command was answered with a code
* `Connection.Answerable`: what was told when a command of a download is answered

## Main results

* `Connection.download_ends`: how a download that fails ends
* `FtpSource.openFile_notFound_iff`: when a name is not found
* `FtpSource.openFile_without_port`: a name that is reported as missing and was not asked for
-/

namespace InstallMedia

open Attempt (Ends Meets)

namespace Connection

/-! ## Answers -/

/-- What was heard last since `past` is the answer to the last command, and has this code. -/
def AnsweredWith (past : List (Nat × FtpReply)) (code : Nat) (c : Connection) : Prop :=
  ∃ front reply, c.heard = past ++ front ++ [(Transcript.commands c.transcript, reply)] ∧
    reply.code = code

/-- Nothing that was heard since `past` has this code. -/
def Unheard (past : List (Nat × FtpReply)) (code : Nat) (c : Connection) : Prop :=
  ∃ new, c.heard = past ++ new ∧ ∀ p ∈ new, p.2.code ≠ code

variable {past : List (Nat × FtpReply)} {first c : Connection} {events : List FtpEvent}
  {line path : String} {code : Nat}

theorem Unheard.refl (c : Connection) (code : Nat) : Unheard c.heard code c :=
  ⟨[], (List.append_nil _).symm, by simp⟩

theorem Unheard.not_answeredWith (h : Unheard past code c) : ¬ AnsweredWith past code c := by
  obtain ⟨new, heard, other⟩ := h
  rintro ⟨front, reply, last, same⟩
  rw [heard, List.append_assoc] at last
  have new_eq := List.append_cancel_left last
  exact other (Transcript.commands c.transcript, reply) (by simp [new_eq]) same

/-! ## Commands -/

/-- No reply has the wrong code where a command is not answered. -/
theorem command_replyCode? (line : String) :
    Ends (fun _ => True) (command line) (fun _ _ => True)
      fun fault _ => fault.replyCode? = none := by
  refine Ends.bind (Q := fun _ _ => True) ?_ fun _ => ?_
  · rintro c -
    rw [send]
    by_cases pending : c.state = .awaitingReply
    · rw [if_pos pending]
      rfl
    · rw [if_neg pending]
      cases c.server.blocked c.transcript <;> trivial
  · rintro c -
    rw [readReply]
    cases read : FtpReply.read (c.server.silence c.transcript) c.unread with
    | mk result rest =>
      cases result with
      | ok reply => trivial
      | error fault =>
        -- Either the connection has ended or a line is malformed: neither has a code.
        rcases FtpReply.read_eq_error (congrArg Prod.fst read) with rfl | ⟨line, rfl⟩
        · cases c.server.silence c.transcript <;> rfl
        · rfl

/-- Since `first`, these events were told, and since `past` no code was heard that stands for a file
that is not available. -/
def GoesOn (first : Connection) (past : List (Nat × FtpReply)) (events : List FtpEvent)
    (c : Connection) : Prop :=
  Told first events c ∧ Unheard past FtpFault.fileUnavailable c

theorem command_ends (line : String) : Ends (GoesOn first past events) (command line)
    (fun reply c => Told first (events ++ [asked line]) c ∧ ∃ front,
      c.heard = past ++ front ++ [(Transcript.commands c.transcript, reply)] ∧
        ∀ p ∈ front, p.2.code ≠ FtpFault.fileUnavailable)
    (fun fault c => (GoesOn first past events c ∨ GoesOn first past (events ++ [asked line]) c) ∧
      fault.replyCode? = none) := by
  rintro c ⟨told, new, heard, other⟩
  -- What is told, what is heard and what the fault is are three accounts of the same command.
  have run := Ends.and ((command_told line).and (command_heard line (past ++ new)))
    (command_replyCode? line) c ⟨⟨told, heard⟩, trivial⟩
  split at run
  · exact ⟨run.1.1, new, run.1.2, other⟩
  · obtain ⟨⟨told' | told', heard'⟩, code⟩ := run
    · exact ⟨Or.inl ⟨told', new, heard', other⟩, code⟩
    · exact ⟨Or.inr ⟨told', new, heard', other⟩, code⟩

/-- A dialogue that ends after a command, or before it, with the fault that the answer to it has the
wrong code or with another one. -/
inductive Stops (first : Connection) (past : List (Nat × FtpReply)) (events : List FtpEvent)
    (line : String) : FtpFault → Connection → Prop where
  | before {fault : FtpFault} {c : Connection} (told : Told first events c)
      (unheard : Unheard past FtpFault.fileUnavailable c)
      (code : fault.replyCode? ≠ some FtpFault.fileUnavailable) :
      Stops first past events line fault c
  | after {fault : FtpFault} {c : Connection} (told : Told first (events ++ [asked line]) c)
      (code : fault.replyCode? = some FtpFault.fileUnavailable ↔
        AnsweredWith past FtpFault.fileUnavailable c) :
      Stops first past events line fault c

/-- An answer that ends the dialogue does so with its code. -/
theorem stops_of_answer {reply : FtpReply} {front : List (Nat × FtpReply)}
    (told : Told first (events ++ [asked line]) c)
    (heard : c.heard = past ++ front ++ [(Transcript.commands c.transcript, reply)]) :
    Stops first past events line (unexpected line reply) c := by
  refine .after told ?_
  have code : (unexpected line reply).replyCode? = some reply.code := rfl
  rw [code, Option.some.injEq]
  constructor
  · intro same
    exact ⟨front, reply, heard, same⟩
  · rintro ⟨front', reply', heard', same⟩
    obtain ⟨-, last⟩ := List.append_inj' (heard.symm.trans heard') rfl
    obtain rfl : reply = reply' := by simpa using last
    exact same

theorem goesOn_of_answer {reply : FtpReply} {front : List (Nat × FtpReply)}
    (told : Told first (events ++ [asked line]) c)
    (heard : c.heard = past ++ front ++ [(Transcript.commands c.transcript, reply)])
    (other : ∀ p ∈ front, p.2.code ≠ FtpFault.fileUnavailable)
    (accepted : reply.code ≠ FtpFault.fileUnavailable) :
    GoesOn first past (events ++ [asked line]) c := by
  refine ⟨told, front ++ [(_, reply)], by rw [heard, List.append_assoc], fun p hp => ?_⟩
  rcases List.mem_append.mp hp with hp | hp
  · exact other p hp
  · obtain rfl := List.mem_singleton.mp hp
    exact accepted

/-- A code whose hundreds are not five is not the one of a file that is not available. -/
theorem code_ne_of_group {reply : FtpReply} {group : Nat} (h : reply.group = group)
    (other : group < 5) : reply.code ≠ FtpFault.fileUnavailable := by
  intro same
  rw [FtpReply.group, same] at h
  subst h
  revert other
  decide

theorem stops_of_failed {fault : FtpFault}
    (h : (GoesOn first past events c ∨ GoesOn first past (events ++ [asked line]) c) ∧
      fault.replyCode? = none) : Stops first past events line fault c := by
  obtain ⟨⟨told, unheard⟩ | ⟨told, unheard⟩, code⟩ := h
  · exact .before told unheard (by simp [code])
  · exact .after told (iff_of_false (by simp [code]) unheard.not_answeredWith)

theorem expect_ends (line : String) : Ends (GoesOn first past events) (expect line 2)
    (fun _ => GoesOn first past (events ++ [asked line])) (Stops first past events line) := by
  refine Ends.bind ((command_ends line).weaken (fun _ h => h) (fun _ _ h => h)
    fun _ _ => stops_of_failed) fun reply => ?_
  refine Ends.bind (Q := fun _ => GoesOn first past (events ++ [asked line])) ?_ fun _ =>
    .pure fun _ h => h
  rintro c ⟨told, front, heard, other⟩
  by_cases accepted : reply.group = 2
  · rw [check_of_group accepted]
    exact goesOn_of_answer told heard other (code_ne_of_group accepted (by decide))
  · rw [check_of_other accepted]
    exact stops_of_answer told heard

/-! ## Downloads -/

/-- What was told since when a command of a download is answered. -/
inductive Answerable (peer path : String) : List FtpEvent → Prop where
  | type : Answerable peer path [asked "TYPE I"]
  | passive : Answerable peer path [asked "TYPE I", asked "PASV"]
  | retrieve (port : Nat) : Answerable peer path (beginning peer "TYPE I" ("RETR " ++ path) port)

/-- A download that ends after some of what it is there to tell, with the fault that the answer to
one of its commands has the wrong code or with another one. -/
structure Stopped (first : Connection) (past : List (Nat × FtpReply)) (path : String)
    (fault : FtpFault) (c : Connection) : Prop where
  told : ∃ events port, Told first events c ∧
    events <+: beginning first.peer "TYPE I" ("RETR " ++ path) port ∧
    (AnsweredWith past FtpFault.fileUnavailable c → Answerable first.peer path events)
  code : fault.replyCode? = some FtpFault.fileUnavailable ↔
    AnsweredWith past FtpFault.fileUnavailable c

theorem Stops.stopped {fault : FtpFault} (h : Stops first past events line fault c) (port : Nat)
    (part : events ++ [asked line] <+: beginning first.peer "TYPE I" ("RETR " ++ path) port)
    (answerable : Answerable first.peer path (events ++ [asked line])) :
    Stopped first past path fault c := by
  cases h with
  | before told unheard code =>
    have silent := unheard.not_answeredWith
    exact ⟨⟨events, port, told, (List.prefix_append _ _).trans part, fun h => absurd h silent⟩,
      iff_of_false code silent⟩
  | after told code => exact ⟨⟨_, port, told, part, fun _ => answerable⟩, code⟩

theorem GoesOn.stopped {fault : FtpFault} (h : GoesOn first past events c)
    (code : fault.replyCode? = none) (port : Nat)
    (part : events <+: beginning first.peer "TYPE I" ("RETR " ++ path) port) :
    Stopped first past path fault c := by
  have silent := h.2.not_answeredWith
  exact ⟨⟨events, port, h.1, part, fun h => absurd h silent⟩,
    iff_of_false (by simp [code]) silent⟩

theorem dial_ends (port : Nat) : Ends (GoesOn first past events) (dial port)
    (fun _ => GoesOn first past (events ++ [.dialled first.peer port]))
    (fun fault c => GoesOn first past (events ++ [.dialled first.peer port]) c ∧
      fault.replyCode? = none) := by
  rintro c ⟨told, unheard⟩
  have told' := dial_told port c told
  rw [dial] at told' ⊢
  dsimp only at told' ⊢
  cases refused : (c.tell (.dialled c.peer port)).server.refused
      (c.tell (.dialled c.peer port)).transcript with
  | none =>
    rw [refused] at told'
    exact ⟨told', unheard⟩
  | some cause =>
    rw [refused] at told'
    exact ⟨⟨told', unheard⟩, rfl⟩

theorem openData_ends (path : String) : Ends (GoesOn first past [asked "TYPE I"])
    (openData ("RETR " ++ path))
    (fun _ c => ∃ port, GoesOn first past
      (beginning first.peer "TYPE I" ("RETR " ++ path) port) c)
    (Stopped first past path) := by
  refine Ends.bind ((expect_ends "PASV").weaken (fun _ h => h) (fun _ _ h => h) fun _ _ h =>
    h.stopped 0 ⟨_, rfl⟩ .passive) fun reply => ?_
  refine .ofExcept_bind (fun port _ => ?_) fun fault hf c h => ?_
  · refine Ends.bind ((dial_ends port).weaken (fun _ h => h) (fun _ _ h => h) fun _ _ h =>
      h.1.stopped h.2 port ⟨_, rfl⟩) fun _ => ?_
    refine Ends.bind ((command_ends ("RETR " ++ path)).weaken (fun _ h => h) (fun _ _ h => h)
      fun _ _ h => (stops_of_failed h).stopped port (List.prefix_refl _) (.retrieve port))
      fun reply => ?_
    split
    · rename_i accepted
      refine .pure fun c ⟨told, front, heard, other⟩ => ⟨port, ?_⟩
      exact goesOn_of_answer told heard other (code_ne_of_group accepted (by decide))
    · refine .fail fun c ⟨told, front, heard, other⟩ => ?_
      exact (stops_of_answer told heard).stopped port (List.prefix_refl _) (.retrieve port)
  · have malformed : fault.replyCode? = none := by
      rw [Passive.port] at hf
      split at hf
      · cases hf
      · obtain rfl := Except.error.inj hf
        rfl
    exact h.stopped malformed 0 ⟨_, rfl⟩

/-- A download succeeds when none of its answers says that a file is not available, or ends with
what it was answered. -/
theorem download_ends (path : String) : Ends (GoesOn first past []) (download path)
    (fun _ c => ∃ port, GoesOn first past (beginning first.peer "TYPE I" ("RETR " ++ path) port) c)
    (Stopped first past path) := by
  refine Ends.bind (Q := fun _ => GoesOn first past [asked "TYPE I"]) ?_ fun _ => ?_
  · refine Ends.discard ((expect_ends "TYPE I").weaken (fun _ h => h) (fun _ _ h => h) fun _ _ h =>
      h.stopped 0 ⟨_, rfl⟩ .type)
  refine (openData_ends path).bind fun _ => ?_
  rintro c ⟨port, told, unheard⟩
  exact ⟨port, ⟨told.server_eq, told.peer_eq, told.transcript_eq⟩, unheard⟩

end Connection

namespace FtpSource

open Connection

variable {s : FtpSource} {w : World} {c : Connection} {others : Nat} {name : String}

/-- A fault is reported as a missing name if it is that a file is not available. -/
theorem errorFor_eq_notFound_iff {fault : FtpFault} {n : String} :
    fault.errorFor name = .notFound n ↔
      n = name ∧ fault.replyCode? = some FtpFault.fileUnavailable := by
  rw [FtpFault.errorFor]
  split
  · rename_i code
    simp [code, eq_comm]
  · rename_i code
    simp [code, FtpFault.error]

/-- What opening a name comes to: it fails while the pending reply is drained or because the name
cannot be decoded, or it does what the download does. -/
inductive Opens (s : FtpSource) (w : World) (c : Connection) (others : Nat) (name : String) :
    Except SourceError Stream × FtpSource × World → Prop where
  | undrained {fault : FtpFault} (drained : (drain c).1 = .error fault) :
    Opens s w c others name
      (.error fault.error, { s with session := .held (drain c).2 others }, w)
  | undecoded {e : SourceError} (decoded : percentDecode name = .error e) :
    Opens s w c others name (.error e, { s with session := .held (drain c).2 others }, w)
  | downloads {path : String} (decoded : percentDecode name = .ok path) :
    Opens s w c others name
      (((download path (drain c).2).1.map Stream.feed).mapError (FtpFault.errorFor name),
        { s with session := .held (download path (drain c).2).2 others }, w)

theorem opens (held : s.session = .held c others) :
    Opens s w c others name (openFile name (s, w)) := by
  cases drained : drain c with
  | mk result c₁ =>
    cases result with
    | error fault =>
      have opened : Opens s w c others name
          (.error fault.error, { s with session := .held (drain c).2 others }, w) :=
        .undrained (congrArg Prod.fst drained)
      rw [drained] at opened
      simpa only [openFile, beside, Attempt.on_apply, onIdle, held, drained] using opened
    | ok reply =>
      cases decoded : percentDecode name with
      | error e =>
        have opened : Opens s w c others name
            (.error e, { s with session := .held (drain c).2 others }, w) := .undecoded decoded
        rw [drained] at opened
        simpa only [openFile, beside, Attempt.on_apply, onIdle, held, drained, decoded,
          Attempt.bind_apply, Attempt.ofExcept_apply] using opened
      | ok path =>
        rw [openFile_of_drained held drained decoded]
        obtain rfl : (drain c).2 = c₁ := congrArg Prod.snd drained
        exact .downloads decoded

theorem percentDecode_ne_notFound {e : SourceError} (h : percentDecode name = .error e)
    (n : String) : e ≠ .notFound n := by
  obtain ⟨fault, -, rfl⟩ := mapError_eq_error_iff.mp h
  nofun

/-- **When a name is not found**: exactly if a command of its download was answered with the code
for a file that is not available.  This is the command for the download, but also the type of the
data and `PASV`.  Whatever else goes wrong is reported as something else. -/
theorem openFile_notFound_iff (held : s.session = .held c others) (w : World) (name : String) :
    ∃ c' events, (openFile name (s, w)).2 = ({ s with session := .held c' others }, w) ∧
      Told c events c' ∧
      (events = [] ∨ ∃ path port, percentDecode name = .ok path ∧
        events <+: beginning c.peer "TYPE I" ("RETR " ++ path) port) ∧
      (∀ n, (openFile name (s, w)).1 = .error (.notFound n) ↔
        n = name ∧ AnsweredWith (drain c).2.heard FtpFault.fileUnavailable c') ∧
      (AnsweredWith (drain c).2.heard FtpFault.fileUnavailable c' →
        ∃ path, percentDecode name = .ok path ∧ Answerable c.peer path events) ∧
      ∀ e, (openFile name (s, w)).1 = .error e → e = .notFound name ∨
        (∃ fault : FtpFault, e = fault.error) ∨ percentDecode name = .error e := by
  have begun : GoesOn c (drain c).2.heard [] (drain c).2 :=
    ⟨drain_told.snd (Told.refl c), Unheard.refl _ _⟩
  have silent := begun.2.not_answeredWith
  have opened : Opens s w c others name (openFile name (s, w)) := opens held
  generalize openFile name (s, w) = outcome at opened
  -- Before the download nothing is told, and no answer is heard.
  cases opened with
  | @undrained fault drained =>
    refine ⟨(drain c).2, [], rfl, begun.1, Or.inl rfl, fun n => ?_, fun h => absurd h silent, ?_⟩
    · exact iff_of_false (fun h => by cases h) fun h => silent h.2
    · rintro e h
      obtain rfl := Except.error.inj h
      exact Or.inr (Or.inl ⟨fault, rfl⟩)
  | @undecoded e decoded =>
    refine ⟨(drain c).2, [], rfl, begun.1, Or.inl rfl, fun n => ?_, fun h => absurd h silent, ?_⟩
    · refine iff_of_false (fun h => ?_) fun h => silent h.2
      exact percentDecode_ne_notFound decoded n (Except.error.inj h)
    · rintro e' h
      obtain rfl := Except.error.inj h
      exact Or.inr (Or.inr decoded)
  | @downloads path decoded =>
    -- Since then, the fault of the download and its last answer have the same code.
    have ended := download_ends path (drain c).2 begun
    cases hd : download path (drain c).2 with
    | mk result c' =>
      rw [hd] at ended
      cases result with
      | ok feed =>
        obtain ⟨port, told, unheard⟩ := ended
        have silent := unheard.not_answeredWith
        refine ⟨c', _, rfl, told, Or.inr ⟨path, port, decoded, List.prefix_refl _⟩, fun n => ?_,
          fun h => absurd h silent, fun e h => by cases h⟩
        exact iff_of_false (fun h => by cases h) fun h => silent h.2
      | error fault =>
        obtain ⟨⟨events, port, told, part, answerable⟩, code⟩ := ended
        refine ⟨c', events, rfl, told, Or.inr ⟨path, port, decoded, part⟩, fun n => ?_,
          fun h => ⟨path, decoded, answerable h⟩, fun e h => ?_⟩
        · change Except.error (fault.errorFor name) = _ ↔ _
          rw [Except.error.injEq, errorFor_eq_notFound_iff, code]
        · obtain rfl := Except.error.inj h
          rw [FtpFault.errorFor]
          split
          · exact Or.inl rfl
          · exact Or.inr (Or.inl ⟨fault, rfl⟩)

/-- The name that a failed call reports as missing. -/
def missing? : Except SourceError Stream → Option String
  | .error (.notFound n) => some n
  | _ => none

theorem missing?_eq_some_iff {result : Except SourceError Stream} {n : String} :
    missing? result = some n ↔ result = .error (.notFound n) := by
  constructor
  · intro h
    unfold missing? at h
    split at h
    · rw [Option.some.inj h]
    · cases h
  · rintro rfl
    rfl

/-- The obliging server, but that it refuses one command as it would refuse a missing file. -/
def refusing (line : String) : FtpServer :=
  { FtpServer.obliging [] with
    respond t := if t.getLast? = some (asked line) then Utf8.encode "550 Not available\r\n"
      else (FtpServer.obliging []).respond t }

/-- A site on it, once it has been started. -/
def refusingMirror (line : String) : FtpSource :=
  { mirror with session := .held { greeted [] with server := refusing line } 0 }

/-- Where the download of a name is refused, the name is missing. -/
theorem openFile_refused :
    ∃ c', (openFile "Packages" (refusingMirror "RETR Packages", .obliging [])).2.1.session =
        .held c' 0 ∧
      AnsweredWith (drain { greeted [] with server := refusing "RETR Packages" }).2.heard 550
        c' := by
  obtain ⟨c', events, left, -, -, iff, -⟩ := openFile_notFound_iff
    (s := refusingMirror "RETR Packages") rfl (.obliging []) "Packages"
  have missing : missing? (openFile "Packages"
      (refusingMirror "RETR Packages", .obliging [])).1 = some "Packages" := by decide +kernel
  exact ⟨c', by rw [left], ((iff "Packages").mp (missing?_eq_some_iff.mp missing)).2⟩

/-- Where the data port is refused, every name is reported as missing, before the download of any is
asked for. -/
theorem openFile_without_port :
    let opened := openFile "Packages" (refusingMirror "PASV", .obliging [])
    opened.1 = .error (.notFound "Packages") ∧
      opened.2.1.session.resource?.map (fun c => (c.transcript, c.heard.getLast?)) =
        some ([asked "TYPE I", asked "PASV"], some (2, ⟨550, "Not available"⟩)) := by
  intro opened
  have missing : missing? opened.1 = some "Packages" := by decide +kernel
  refine ⟨missing?_eq_some_iff.mp missing, ?_⟩
  decide +kernel

end FtpSource

end InstallMedia
