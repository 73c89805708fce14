import InstallMedia.Proofs.Ftp.Session
import InstallMedia.Proofs.Ftp.Telling

/-!
# Late connections

A transfer that fails on the way leaves its last reply to be taken for the answer to the next
command.  From then on the answer to every command is read after the next one has been sent.  So
the answer to the type of the data is taken for the one to `PASV`, and since it names no port, no
transfer succeeds on such a connection any more.

## Main definitions

* `FtpServer.NamesNoPort`: a server that names no port when it accepts a type of data
* `Connection.Lags`, `Connection.IsLate`: an idle connection on which one reply is left

## Main results

* `Connection.download_late`, `Connection.listing_late`, `Connection.upload_late`: transfers fail on
  a late connection, which stays late
* `FtpSource.perform_late`: so does every operation
-/

namespace InstallMedia

open Attempt (Meets)
open Connection

/-- The commands that say of what type the data of the next transfer is. -/
def IsTypeCommand (line : String) : Prop := line = "TYPE I" ∨ line = "TYPE A"

instance (line : String) : Decidable (IsTypeCommand line) := inferInstanceAs (Decidable (_ ∨ _))

/-- A server that names no port when it is told a type of data: only the answer to `PASV` does. -/
def FtpServer.NamesNoPort (answers : Transcript → List WireReply) : Prop :=
  ∀ t line r, IsTypeCommand line → answers (t ++ [asked line]) = [r] →
    Passive.port? r.reply.text = none

theorem IsTypeCommand.isPlain {line : String} (h : IsTypeCommand line) : IsPlain line := by
  rcases h with rfl | rfl
  · exact isPlain_image
  · exact isPlain_text

namespace Connection

/-- An idle connection on which a reply is left, which will be taken for the next answer. -/
structure Lags (server : FtpServer) (r : WireReply) (c : Connection) : Prop where
  server_eq : c.server = server
  idle : c.state = .idle
  wellFormed : r.WellFormed
  unread_eq : c.unread = r.bytes

/-- An idle connection on which some reply is left. -/
def IsLate (server : FtpServer) (c : Connection) : Prop := ∃ r, Lags server r c

variable {server : FtpServer} {answers : Transcript → List WireReply}
  {past : List (Nat × FtpReply)} {r : WireReply} {c : Connection} {line : String}

/-- A transfer that fails on the way makes a connection late. -/
theorem Unfinished.isLate {data : Connection → Prop} (h : Unfinished server answers past c data) :
    IsLate server c := by
  obtain ⟨last, owes, -⟩ := h.owes
  exact ⟨last, h.server_eq, h.idle, owes.wellFormed last (by simp), by simpa using owes.unread_eq⟩

/-! ## Commands -/

section Conforming

variable (hs : server.Conforms answers)

include hs

/-- The reply that is left is taken for the answer to a command, and the answer is left. -/
theorem command_late (hl : IsPlain line) :
    Meets (Lags server r) (command line)
      (fun reply c => reply = r.reply ∧ ∃ t r', answers (t ++ [asked line]) = [r'] ∧
        Lags server r' c)
      (Lags server r) := by
  rintro c ⟨rfl, idle, wellFormed, unread⟩
  obtain ⟨r', answer, -⟩ := hs.command c.transcript line hl
  rw [command]
  cases hb : c.server.blocked c.transcript with
  | some cause =>
    rw [Attempt.bind_of_error (send_of_blocked idle hb line)]
    exact ⟨rfl, idle, wellFormed, unread⟩
  | none =>
    -- The answer stands behind the reply that is left.
    have behind : (c.tell (.sent (wire line))).unread = r.bytes ++ r'.bytes := by
      rw [tell, unread, hs.respond_eq, answer, List.flatMap_singleton]
    have read := FtpReply.read_bytes wellFormed.legible
      (c.server.silence (c.transcript ++ [.sent (wire line)])) r'.bytes
    rw [Attempt.bind_of_ok (send_of_clear idle hb line), readReply, behind]
    simp only [tell, read]
    have written : r'.WellFormed :=
      hs.wellFormed (c.transcript ++ [.sent (wire line)]) r' (by simp [answer])
    exact ⟨trivial, c.transcript, r', answer, rfl, idle, written, rfl⟩

theorem expect_late (hl : IsPlain line) (group : Nat) :
    Meets (Lags server r) (expect line group)
      (fun reply c => reply = r.reply ∧ ∃ t r', answers (t ++ [asked line]) = [r'] ∧
        Lags server r' c)
      (IsLate server) := by
  refine ((command_late hs hl).or_fails fun _ h => ⟨r, h⟩).bind fun reply => ?_
  refine Meets.bind (Q := fun _ c => reply = r.reply ∧ ∃ t r',
    answers (t ++ [asked line]) = [r'] ∧ Lags server r' c) ?_ fun _ => .pure fun _ h => h
  exact .ofExcept (fun _ _ _ h => h) fun _ _ _ ⟨_, _, r', _, h⟩ => ⟨r', h⟩

/-! ## Transfers -/

variable (ports : FtpServer.NamesNoPort answers)

include ports

/-- What is left after the command for a type names no port. -/
theorem type_late (hl : IsTypeCommand line) :
    Meets (IsLate server) (expect line 2)
      (fun _ c => ∃ r, Passive.port? r.reply.text = none ∧ Lags server r c) (IsLate server) := by
  rintro c ⟨r, h⟩
  refine ((expect_late hs hl.isPlain 2).weaken (fun _ h => h) ?_ fun _ h => h) c h
  rintro reply c' ⟨-, t, r', answer, lags⟩
  exact ⟨r', ports t line r' hl answer, lags⟩

omit ports in
/-- A reply that names no port opens no data connection. -/
theorem openData_late :
    Meets (fun c => ∃ r, Passive.port? r.reply.text = none ∧ Lags server r c) (openData line)
      (fun _ _ => False) (IsLate server) := by
  rintro c ⟨r, unnamed, h⟩
  refine ((expect_late hs isPlain_passive 2).bind fun reply => ?_) c h
  refine Meets.bind (Q := fun _ _ => False) ?_ fun _ => .absurd
  refine .ofExcept ?_ fun _ _ _ ⟨_, _, r', _, lags⟩ => ⟨r', lags⟩
  rintro port named c' ⟨rfl, -⟩
  simp [Passive.port, unnamed] at named

theorem download_late (path : String) :
    Meets (IsLate server) (download path) (fun _ _ => False) (IsLate server) :=
  (type_late hs ports (Or.inl rfl)).discard.bind fun _ => (openData_late hs).bind fun _ => .absurd

theorem listing_late (directory : String) :
    Meets (IsLate server) (listing directory) (fun _ _ => False) (IsLate server) :=
  (type_late hs ports (Or.inr rfl)).discard.bind fun _ => (openData_late hs).bind fun _ => .absurd

theorem upload_late (name : String) :
    Meets (fun s : Feed × Connection => IsLate server s.2) (upload name) (fun _ _ => False)
      fun s => IsLate server s.2 := by
  have beside {α : Type} {pre : Connection → Prop} {x : Session α} {post : α → Connection → Prop}
      (h : Meets pre x post (IsLate server)) :=
    (beside_meets (fun _ => True) h).weaken (fun _ h => ⟨trivial, h⟩) (fun _ _ h => h.2)
      fun _ h => h.2
  exact (beside (type_late hs ports (Or.inl rfl))).discard.bind fun _ =>
    (beside (openData_late hs)).bind fun _ => .absurd

end Conforming

end Connection

namespace FtpSource

/-- Every operation leaves the connection of its session late, if it was so before. -/
theorem perform_late {answers : Transcript → List WireReply} {s : FtpSource} {w : World}
    {c : Connection} {others : Nat} {call : Call} (hcall : IsOperation call)
    (held : s.session = .held c others) (hs : c.server.Conforms answers)
    (ports : FtpServer.NamesNoPort answers) (late : IsLate c.server c) :
    ∃ c', (call.perform (s, w)).2 = ({ s with session := .held c' others }, w) ∧
      IsLate c.server c' := by
  have drained : Meets (fun c' => c' = c) drain (fun _ => IsLate c.server) (IsLate c.server) := by
    rintro _ rfl
    obtain ⟨r, lags⟩ := late
    rw [drain, if_pos lags.idle]
    exact ⟨r, lags⟩
  refine perform_of_transfers hcall held late (fun _ h => h) drained (fun path => ?_)
    (fun directory => ?_) fun path feed => ?_
  · exact (download_late hs ports path).weaken (fun _ h => h) (fun _ _ h => h.elim) fun _ h => h
  · exact (listing_late hs ports directory).weaken (fun _ h => h) (fun _ _ h => h.elim) fun _ h => h
  · exact (upload_late hs ports path).weaken (fun _ h => h.2) (fun _ _ h => h.elim) fun _ h => h

end FtpSource

end InstallMedia
