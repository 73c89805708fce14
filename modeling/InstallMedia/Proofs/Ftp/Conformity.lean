import InstallMedia.Ftp.Connection
import InstallMedia.Proofs.Ftp.Wire
import Mathlib.Data.List.Infix

/-!
# Servers that conform, and connections in step with them

A conforming server greets once, answers every command with one final reply, and a transfer perhaps
with a preliminary reply before that.  The ledger of a transcript is every reply that the server has
sent, with the number of the command that it answers.  A connection is in step when it has heard
exactly the ledger, but for the reply that it knows to be pending.

## Main definitions

* `FtpServer.Conforms`: what a server answers to what it is told
* `Transcript.ledger`: the replies sent, with the commands that they answer
* `Connection.Owes`, `Connection.InStep`: what a server has sent and nobody has read

## Main results

* `Connection.readReply_of_owes`: the reply that is read is the first one owed
* `Connection.command_cases`: a command that is sent is answered by the first reply to it
-/

namespace InstallMedia

/-! ## Servers -/

/-- Whether a command fits on one line. -/
def IsOneLine (line : String) : Prop := '\r' ∉ line.toList ∧ '\n' ∉ line.toList

instance (line : String) : Decidable (IsOneLine line) := inferInstanceAs (Decidable (_ ∧ _))

namespace Connection

/-- A command as it is sent. -/
def wire (line : String) : Bytes := Utf8.encode line ++ lineEnd

/-- Whether a command begins a transfer from the server. -/
def IsDownload (line : String) : Prop := verb line = "RETR" ∨ verb line = "NLST"

/-- Whether a command begins a transfer to the server. -/
def IsUpload (line : String) : Prop := verb line = "STOR"

instance (line : String) : Decidable (IsDownload line) := inferInstanceAs (Decidable (_ ∨ _))

instance (line : String) : Decidable (IsUpload line) :=
  inferInstanceAs (Decidable (verb line = "STOR"))

/-- A command on one line that begins no transfer. -/
structure IsPlain (line : String) : Prop where
  oneLine : IsOneLine line
  not_download : ¬ IsDownload line
  not_upload : ¬ IsUpload line

end Connection

open Connection (wire IsPlain IsDownload IsUpload)

/-- A reply after which another one follows. -/
def WireReply.IsPreliminary (r : WireReply) : Prop := r.group = 1

/-- A reply after which none follows. -/
def WireReply.IsFinal (r : WireReply) : Prop := 2 ≤ r.group ∧ r.group ≤ 5

instance (r : WireReply) : Decidable r.IsPreliminary := inferInstanceAs (Decidable (r.group = 1))

instance (r : WireReply) : Decidable r.IsFinal := inferInstanceAs (Decidable (_ ∧ _))

/-- A server that answers everything it is told as it should.  The reply that ends a download is
sent with the download, the one that ends an upload once the data has been received. -/
structure FtpServer.Conforms (server : FtpServer) (answers : Transcript → List WireReply) :
    Prop where
  respond_eq : ∀ t, server.respond t = (answers t).flatMap WireReply.bytes
  wellFormed : ∀ t, ∀ r ∈ answers t, r.WellFormed
  greeting : ∃ delays final, answers [] = delays ++ [final] ∧
    (∀ r ∈ delays, r.IsPreliminary) ∧ final.IsFinal
  dialled : ∀ t host port, answers (t ++ [.dialled host port]) = []
  command : ∀ t line, IsPlain line → ∃ r, answers (t ++ [.sent (wire line)]) = [r] ∧ r.IsFinal
  download : ∀ t line, IsOneLine line → IsDownload line →
    (∃ r, answers (t ++ [.sent (wire line)]) = [r] ∧ r.IsFinal) ∨
      ∃ first last, answers (t ++ [.sent (wire line)]) = [first, last] ∧
        first.IsPreliminary ∧ last.IsFinal
  upload : ∀ t line, IsOneLine line → IsUpload line →
    ∃ r, answers (t ++ [.sent (wire line)]) = [r] ∧ (r.IsFinal ∨ r.IsPreliminary)
  uploaded : ∀ t line bytes r, IsOneLine line → IsUpload line →
    answers (t ++ [.sent (wire line)]) = [r] → r.IsPreliminary →
      ∃ last, answers (t ++ [.sent (wire line)] ++ [.uploaded bytes]) = [last] ∧ last.IsFinal

/-! ## Ledgers -/

/-- A reply, with the number of the command that it answers. -/
def WireReply.labelled (r : WireReply) (t : Transcript) : Nat × FtpReply := (t.commands, r.reply)

namespace Transcript

/-- Every reply that was sent to what was told, with the number of the command that it answers. -/
def ledger (answers : Transcript → List WireReply) (t : Transcript) : List (Nat × FtpReply) :=
  t.inits.flatMap fun told => (answers told).map (·.labelled told)

variable {answers : Transcript → List WireReply}

theorem ledger_nil : ledger answers [] = (answers []).map (·.labelled []) := by
  simp [ledger]

theorem ledger_concat (t : Transcript) (event : FtpEvent) :
    ledger answers (t ++ [event]) =
      ledger answers t ++ (answers (t ++ [event])).map (·.labelled (t ++ [event])) := by
  rw [ledger, List.inits_append, List.flatMap_append]
  simp [ledger]

theorem commands_concat_other (t : Transcript) {event : FtpEvent} (h : event.isCommand = false) :
    commands (t ++ [event]) = commands t := by
  simp [commands, h]

end Transcript

/-! ## Connections -/

namespace Connection

/-- What the server has sent and nobody has read is just these replies, all to the last command, and
what was heard before them is all that it sent before them. -/
structure Owes (answers : Transcript → List WireReply) (c : Connection) (owed : List WireReply) :
    Prop where
  wellFormed : ∀ r ∈ owed, r.WellFormed
  unread_eq : c.unread = owed.flatMap WireReply.bytes
  ledger_eq : c.transcript.ledger answers = c.heard ++ owed.map (·.labelled c.transcript)

/-- Everything that the server has sent was heard as the answer to what it answers, but for one
reply if one is known to be pending. -/
def InStep (answers : Transcript → List WireReply) (c : Connection) : Prop :=
  ∃ owed, c.Owes answers owed ∧ (∀ r ∈ owed, r.IsFinal) ∧
    owed.length = if c.state = .awaitingReply then 1 else 0

variable {answers : Transcript → List WireReply} {c : Connection} {r : WireReply}
  {owed : List WireReply}

theorem Owes.heard_prefix (h : c.Owes answers owed) : c.heard <+: c.transcript.ledger answers := by
  rw [h.ledger_eq]
  exact List.prefix_append _ _

/-- What is owed can be told from what is unread. -/
theorem Owes.nil_iff (h : c.Owes answers owed) : owed = [] ↔ c.unread = [] := by
  rw [h.unread_eq]
  cases owed with
  | nil => simp
  | cons r owed => simp [WireReply.bytes_ne_nil]

/-- On an idle connection in step, there is nothing to be read. -/
theorem InStep.unread_eq_nil (h : c.InStep answers) (idle : c.state = .idle) : c.unread = [] := by
  obtain ⟨owed, owes, -, length⟩ := h
  exact owes.nil_iff.mp (by simpa [idle] using length)

/-- There are no more replies than bytes. -/
theorem Owes.length_le (h : c.Owes answers owed) : owed.length ≤ c.unread.length := by
  rw [h.unread_eq]
  clear h
  -- Every reply has a byte at least.
  induction owed with
  | nil => simp
  | cons r owed ih =>
    have := List.length_pos_iff.mpr r.bytes_ne_nil
    rw [List.flatMap_cons, List.length_append, List.length_cons]
    omega

/-- The connection after a reply has been heard. -/
def hear (c : Connection) (r : WireReply) (owed : List WireReply) : Connection :=
  { c with
    unread := owed.flatMap WireReply.bytes
    heard := c.heard ++ [r.labelled c.transcript] }

/-- The reply that is read is the first one owed. -/
theorem readReply_of_owes (h : c.Owes answers (r :: owed)) :
    readReply c = (.ok r.reply, c.hear r owed) ∧ (c.hear r owed).Owes answers owed := by
  have hread := FtpReply.read_bytes (h.wellFormed r (by simp)).legible
    (c.server.silence c.transcript) (owed.flatMap WireReply.bytes)
  constructor
  · rw [readReply, h.unread_eq, List.flatMap_cons, hread]
    rfl
  · refine ⟨fun r' hr' => h.wellFormed r' (by simp [hr']), rfl, ?_⟩
    rw [hear, h.ledger_eq]
    simp

/-- What is told is answered after all that is owed already, if it is no command. -/
theorem Owes.tell (h : c.Owes answers owed) (hs : c.server.Conforms answers) (event : FtpEvent)
    (he : event.isCommand = false ∨ owed = []) :
    (c.tell event).Owes answers (owed ++ answers (c.transcript ++ [event])) := by
  refine ⟨?_, ?_, ?_⟩
  · intro r hr
    rcases List.mem_append.mp hr with hr | hr
    · exact h.wellFormed r hr
    · exact hs.wellFormed _ r hr
  · rw [Connection.tell, h.unread_eq, hs.respond_eq, List.flatMap_append]
  · rw [Connection.tell, Transcript.ledger_concat, h.ledger_eq]
    -- What is owed keeps its number, unless a command is sent while something is owed.
    rcases he with he | rfl
    · simp [WireReply.labelled, Transcript.commands_concat_other _ he]
    · simp

theorem send_of_blocked {cause : IoFault} (idle : c.state = .idle)
    (blocked : c.server.blocked c.transcript = some cause) (line : String) :
    send line c = (.error (.io cause), c) := by
  simp [send, idle, blocked]

theorem send_of_clear (idle : c.state = .idle) (clear : c.server.blocked c.transcript = none)
    (line : String) : send line c = (.ok (), c.tell (.sent (wire line))) := by
  simp [send, idle, clear, wire]

/-- A reply of the group that is needed passes. -/
theorem check_of_group {line : String} {reply : FtpReply} {group : Nat}
    (h : reply.group = group) : check line reply group = .ok () := if_pos h

theorem check_of_other {line : String} {reply : FtpReply} {group : Nat}
    (h : reply.group ≠ group) : check line reply group = .error (unexpected line reply) :=
  if_neg h

/-- A command that can be sent while nothing is owed is answered by the first reply to it. -/
theorem command_of_clear (hs : c.server.Conforms answers) (h : c.Owes answers [])
    (idle : c.state = .idle) (clear : c.server.blocked c.transcript = none) {line : String}
    (ha : answers (c.transcript ++ [.sent (wire line)]) = r :: owed) :
    command line c = (.ok r.reply, (c.tell (.sent (wire line))).hear r owed) ∧
      ((c.tell (.sent (wire line))).hear r owed).Owes answers owed := by
  have told := h.tell hs (.sent (wire line)) (Or.inr rfl)
  rw [List.nil_append, ha] at told
  obtain ⟨read, owes⟩ := readReply_of_owes told
  refine ⟨?_, owes⟩
  rw [command, Attempt.bind_of_ok (send_of_clear idle clear line), read]

/-- A command that is sent while nothing is owed is answered by the first reply to it. -/
theorem command_cases (hs : c.server.Conforms answers) (h : c.Owes answers [])
    (idle : c.state = .idle) {line : String}
    (ha : answers (c.transcript ++ [.sent (wire line)]) = r :: owed) :
    (∃ fault, command line c = (.error fault, c)) ∨
      command line c = (.ok r.reply, (c.tell (.sent (wire line))).hear r owed) ∧
        ((c.tell (.sent (wire line))).hear r owed).Owes answers owed := by
  cases hb : c.server.blocked c.transcript with
  | some cause => exact Or.inl ⟨_, Attempt.bind_of_error (send_of_blocked idle hb line)⟩
  | none => exact Or.inr (command_of_clear hs h idle hb ha)

/-- A command that is sent while something is owed is answered by what is owed. -/
theorem command_of_owes (h : c.Owes answers (r :: owed)) (idle : c.state = .idle)
    (clear : c.server.blocked c.transcript = none) (line : String) :
    (command line c).1 = .ok r.reply := by
  -- The answer to the command stands behind what is owed.
  have hread := FtpReply.read_bytes (h.wellFormed r (by simp)).legible
    (c.server.silence (c.transcript ++ [.sent (wire line)]))
    (owed.flatMap WireReply.bytes ++ c.server.respond (c.transcript ++ [.sent (wire line)]))
  rw [command, Attempt.bind_of_ok (send_of_clear idle clear line), readReply, tell, h.unread_eq]
  simp only [List.flatMap_cons, List.append_assoc, hread]

end Connection

end InstallMedia
