import InstallMedia.Proofs.Attempt
import InstallMedia.Proofs.Ftp.Conformity

/-!
# Dialogues with a conforming server

What each dialogue on a control connection does to a connection that is in step.  All but the
transfers leave it at rest, whether they succeed or fail.  A transfer that the server has accepted
is completed by one more reply; if the client gives up between the two, that reply stays unread on a
connection that takes itself to be idle.

## Main definitions

* `Connection.Rests`: an idle connection on which nothing is owed
* `Connection.Accepted`: since some moment, the server has accepted a transfer
* `Connection.Completed`, `Connection.Unfinished`: how a transfer ends that was read to its last
  reply, and one that was not

## Main results

* `Connection.greet_meets`, `login_meets`, `changeDirectory_meets`, `drain_meets`, `quit_meets`
* `Connection.download_meets`, `Connection.listing_meets`, `Connection.upload_meets`
-/

namespace InstallMedia

/-! ## Lines -/

theorem IsOneLine.append {a b : String} (ha : IsOneLine a) (hb : IsOneLine b) :
    IsOneLine (a ++ b) := by
  simp only [IsOneLine, String.toList_append, List.mem_append, not_or]
  exact ⟨⟨ha.1, hb.1⟩, ha.2, hb.2⟩

namespace Connection

theorem isPlain_image : IsPlain "TYPE I" := by
  constructor <;> simp [IsOneLine, IsDownload, IsUpload, verb]

theorem isPlain_text : IsPlain "TYPE A" := by
  constructor <;> simp [IsOneLine, IsDownload, IsUpload, verb]

theorem isPlain_passive : IsPlain "PASV" := by
  constructor <;> simp [IsOneLine, IsDownload, IsUpload, verb]

theorem isPlain_quit : IsPlain "QUIT" := by
  constructor <;> simp [IsOneLine, IsDownload, IsUpload, verb]

theorem isPlain_user {name : String} (h : IsOneLine name) : IsPlain ("USER " ++ name) :=
  ⟨.append (by simp [IsOneLine]) h, by simp [IsDownload, verb], by simp [IsUpload, verb]⟩

theorem isPlain_pass {password : String} (h : IsOneLine password) :
    IsPlain ("PASS " ++ password) :=
  ⟨.append (by simp [IsOneLine]) h, by simp [IsDownload, verb], by simp [IsUpload, verb]⟩

theorem isPlain_directory {directory : String} (h : IsOneLine directory) :
    IsPlain ("CWD " ++ directory) :=
  ⟨.append (by simp [IsOneLine]) h, by simp [IsDownload, verb], by simp [IsUpload, verb]⟩

theorem isDownload_retrieve (path : String) : IsDownload ("RETR " ++ path) := by
  simp [IsDownload, verb]

theorem isDownload_listing (directory : String) : IsDownload (listingCommand directory) := by
  unfold listingCommand
  split <;> simp [IsDownload, verb]

theorem isUpload_store (name : String) : IsUpload ("STOR " ++ name) := by
  simp [IsUpload, verb]

theorem isOneLine_retrieve {path : String} (h : IsOneLine path) : IsOneLine ("RETR " ++ path) :=
  .append (by simp [IsOneLine]) h

theorem isOneLine_store {name : String} (h : IsOneLine name) : IsOneLine ("STOR " ++ name) :=
  .append (by simp [IsOneLine]) h

theorem isOneLine_listing {directory : String} (h : IsOneLine directory) :
    IsOneLine (listingCommand directory) := by
  unfold listingCommand
  split
  · simp [IsOneLine]
  · exact .append (by simp [IsOneLine]) h

end Connection

theorem WireReply.IsFinal.not_preliminary {r : WireReply} (h : r.IsFinal) : ¬ r.IsPreliminary := by
  have := h.1
  unfold IsPreliminary
  omega

/-- A transfer is answered at once by a final reply, or by a preliminary one. -/
theorem FtpServer.Conforms.transfer {server : FtpServer} {answers : Transcript → List WireReply}
    (hs : server.Conforms answers) (t : Transcript) {line : String} (hl : IsOneLine line)
    (ht : Connection.IsDownload line ∨ Connection.IsUpload line) :
    ∃ r owed, answers (t ++ [.sent (Connection.wire line)]) = r :: owed ∧
      (r.IsFinal ∧ owed = [] ∨ r.IsPreliminary) := by
  rcases ht with ht | ht
  · rcases hs.download t line hl ht with ⟨r, hr, hf⟩ | ⟨r, last, hr, hp, -⟩
    · exact ⟨r, [], hr, Or.inl ⟨hf, rfl⟩⟩
    · exact ⟨r, [last], hr, Or.inr hp⟩
  · obtain ⟨r, hr, hf | hp⟩ := hs.upload t line hl ht
    · exact ⟨r, [], hr, Or.inl ⟨hf, rfl⟩⟩
    · exact ⟨r, [], hr, Or.inr hp⟩

namespace Connection

open Attempt (Meets)

/-! ## States of a connection -/

section States

variable (server : FtpServer) (answers : Transcript → List WireReply)
  (past : List (Nat × FtpReply)) (c : Connection)

/-- Since `past` was heard, the server has accepted no transfer. -/
def Plain : Prop := ∃ new, c.heard = past ++ new ∧ ∀ p ∈ new, p.2.group ≠ 1

/-- Since `past` was heard, the server has accepted a transfer. -/
def Accepted : Prop := ∃ new, c.heard = past ++ new ∧ ∃ p ∈ new, p.2.group = 1

/-- An idle connection on which nothing is owed and, since `past` was heard, no transfer was
accepted. -/
structure Rests : Prop where
  server_eq : c.server = server
  idle : c.state = .idle
  owes : c.Owes answers []
  plain : c.Plain past

/-- A connection whose last command has begun a transfer: some replies are still owed. -/
structure Begun (line : String) (owed : List WireReply) : Prop where
  server_eq : c.server = server
  idle : c.state = .idle
  owes : c.Owes answers owed
  accepted : c.Accepted past
  told : ∃ t r, c.transcript = t ++ [.sent (wire line)] ∧
    answers (t ++ [.sent (wire line)]) = r :: owed ∧ r.IsPreliminary

/-- An idle connection on which the last reply to a transfer is owed.  The transfer is `data`. -/
structure Unfinished (data : Connection → Prop) : Prop where
  server_eq : c.server = server
  idle : c.state = .idle
  owes : ∃ last, c.Owes answers [last] ∧ last.IsFinal
  accepted : c.Accepted past
  data : data c

/-- An idle connection on which nothing is owed.  A transfer that was accepted has not `failed`. -/
structure Completed (failed : Connection → Prop) : Prop where
  server_eq : c.server = server
  idle : c.state = .idle
  owes : c.Owes answers []
  not_failed : c.Accepted past → ¬ failed c

end States

variable {server : FtpServer} {answers : Transcript → List WireReply}
  {past : List (Nat × FtpReply)} {c : Connection}

theorem Plain.refl (c : Connection) : c.Plain c.heard := ⟨[], by simp⟩

theorem Plain.not_accepted (h : c.Plain past) : ¬ c.Accepted past := by
  obtain ⟨new, hnew, all⟩ := h
  rintro ⟨new', hnew', p, hp, h1⟩
  obtain rfl : new' = new := List.append_cancel_left (hnew'.symm.trans hnew)
  exact all p hp h1

theorem Plain.hear (h : c.Plain past) {r : WireReply} (hr : ¬ r.IsPreliminary)
    (owed : List WireReply) : (c.hear r owed).Plain past := by
  obtain ⟨new, hnew, all⟩ := h
  refine ⟨new ++ [r.labelled c.transcript], ?_, ?_⟩
  · rw [Connection.hear, hnew, List.append_assoc]
  · intro p hp
    rcases List.mem_append.mp hp with hp | hp
    · exact all p hp
    · obtain rfl : p = r.labelled c.transcript := by simpa using hp
      exact hr

theorem Plain.accept (h : c.Plain past) {r : WireReply} (hr : r.IsPreliminary)
    (owed : List WireReply) : (c.hear r owed).Accepted past := by
  obtain ⟨new, hnew, -⟩ := h
  refine ⟨new ++ [r.labelled c.transcript], ?_, r.labelled c.transcript, by simp, hr⟩
  rw [Connection.hear, hnew, List.append_assoc]

theorem Rests.inStep (h : Rests server answers past c) : c.InStep answers :=
  ⟨[], h.owes, by simp, by simp [h.idle]⟩

theorem Rests.completed (h : Rests server answers past c) (failed : Connection → Prop) :
    Completed server answers past c failed :=
  ⟨h.server_eq, h.idle, h.owes, fun ha => absurd ha h.plain.not_accepted⟩

theorem Completed.inStep {failed : Connection → Prop}
    (h : Completed server answers past c failed) : c.InStep answers :=
  ⟨[], h.owes, by simp, by simp [h.idle]⟩

/-- A connection on which a reply is owed that it does not know of is not in step. -/
theorem Unfinished.not_inStep {data : Connection → Prop}
    (h : Unfinished server answers past c data) : ¬ c.InStep answers := by
  intro step
  obtain ⟨last, owes, -⟩ := h.owes
  have := owes.nil_iff.mpr (step.unread_eq_nil h.idle)
  simp at this

/-- What is left to be read after a transfer is its last reply. -/
theorem readReply_meets {failed : Connection → Prop}
    (keep : ∀ c r owed, failed (c.hear r owed) → failed c) :
    Meets (fun c => Unfinished server answers past c fun c => ¬ failed c) readReply
      (fun _ c => Completed server answers past c failed) fun _ => False := by
  intro c hc
  obtain ⟨last, owes, -⟩ := hc.owes
  obtain ⟨read, owes'⟩ := readReply_of_owes owes
  rw [read]
  exact ⟨hc.server_eq, hc.idle, owes', fun _ bad => hc.data (keep c last [] bad)⟩

/-! ## Commands -/

section Conforming

variable (hs : server.Conforms answers)

include hs

theorem command_meets {line : String} (hl : IsPlain line) :
    Meets (Rests server answers past) (command line)
      (fun _ => Rests server answers past) (Rests server answers past) := by
  intro c hc
  obtain rfl := hc.server_eq
  obtain ⟨r, ha, hf⟩ := hs.command c.transcript line hl
  rcases command_cases hs hc.owes hc.idle ha with ⟨fault, h⟩ | ⟨h, owes⟩
  · rw [h]
    exact hc
  · rw [h]
    exact ⟨rfl, hc.idle, owes, Plain.hear (c := c.tell _) hc.plain hf.not_preliminary []⟩

theorem expect_meets {line : String} (hl : IsPlain line) (group : Nat) :
    Meets (Rests server answers past) (expect line group)
      (fun _ => Rests server answers past) (Rests server answers past) := by
  apply (command_meets hs hl).bind
  intro reply
  refine Meets.bind (Q := fun _ => Rests server answers past) ?_ fun _ => ?_
  · exact .ofExcept (fun _ _ _ hc => hc) fun _ _ _ hc => hc
  · exact .pure fun _ hc => hc

theorem login_meets {username password : Option String} (hu : ∀ u ∈ username, IsOneLine u)
    (hp : ∀ p ∈ password, IsOneLine p) :
    Meets (Rests server answers past) (login username password)
      (fun _ => Rests server answers past) (Rests server answers past) := by
  have user : IsOneLine (username.getD anonymousUser) := by
    cases username with
    | none => simp [IsOneLine, anonymousUser]
    | some u => exact hu u rfl
  have pass : IsOneLine (passwordFor (username.getD anonymousUser) password) := by
    cases password with
    | none =>
      unfold passwordFor
      split
      · simp_all
      · split <;> simp [IsOneLine, anonymousPassword]
    | some p => exact hp p rfl
  apply (command_meets hs (isPlain_user user)).bind
  intro reply
  split
  · exact .pure fun _ hc => hc
  · split
    · apply (command_meets hs (isPlain_pass pass)).bind
      intro reply
      exact .ofExcept (fun _ _ _ hc => hc) fun _ _ _ hc => hc
    · exact .fail fun _ hc => hc

theorem changeDirectory_meets {directory : String} (h : IsOneLine directory) :
    Meets (Rests server answers past) (changeDirectory directory)
      (fun _ => Rests server answers past) (Rests server answers past) :=
  .discard (expect_meets hs (isPlain_directory h) 2)

theorem quit_meets :
    Meets (Rests server answers past) quit
      (fun _ => Rests server answers past) (Rests server answers past) :=
  .discard (expect_meets hs isPlain_quit 2)

/-! ## Greeting and pending reply -/

omit hs in
/-- Announcements of a delay are passed over, up to the reply that is none. -/
theorem readGreeting_meets {delays : List WireReply} {final : WireReply}
    (hd : ∀ r ∈ delays, r.IsPreliminary) (hf : final.IsFinal) {fuel : Nat}
    (hfuel : delays.length ≤ fuel) :
    Meets
      (fun c => c.server = server ∧ c.state = .idle ∧ c.Owes answers (delays ++ [final]))
      (readGreeting fuel)
      (fun greeting c => greeting = final.reply ∧ ∃ past, Rests server answers past c)
      fun _ => False := by
  induction fuel generalizing delays with
  | zero =>
    obtain rfl : delays = [] := by simpa using hfuel
    rintro c ⟨rfl, idle, owes⟩
    obtain ⟨read, owes'⟩ := readReply_of_owes owes
    rw [readGreeting, read]
    exact ⟨rfl, _, rfl, idle, owes', Plain.refl _⟩
  | succ fuel ih =>
    rintro c ⟨rfl, idle, owes⟩
    cases delays with
    | nil =>
      obtain ⟨read, owes'⟩ := readReply_of_owes owes
      have last : final.group ≠ 1 := hf.not_preliminary
      rw [readGreeting, Attempt.bind_of_ok read, WireReply.group_reply, if_neg last]
      exact ⟨rfl, _, rfl, idle, owes', Plain.refl _⟩
    | cons delay delays =>
      obtain ⟨read, owes'⟩ := readReply_of_owes owes
      have delayed : delay.group = 1 := hd delay (by simp)
      rw [readGreeting, Attempt.bind_of_ok read, WireReply.group_reply, if_pos delayed]
      exact ih (fun r hr => hd r (by simp [hr])) (by simpa using hfuel) _ ⟨rfl, idle, owes'⟩

omit hs in
/-- A new connection is greeted by the first reply that announces no delay. -/
theorem readGreeting_fresh {delays : List WireReply} {final : WireReply}
    (respond : server.respond [] = (delays ++ [final]).flatMap WireReply.bytes)
    (ha : answers [] = delays ++ [final]) (well : ∀ r ∈ delays ++ [final], r.WellFormed)
    (hd : ∀ r ∈ delays, r.IsPreliminary) (hf : final.IsFinal) (peer : String) :
    Meets (fun c => c = Connection.fresh server peer)
      (readGreeting (fresh server peer).unread.length)
      (fun greeting c => greeting = final.reply ∧ ∃ past, Rests server answers past c)
      fun _ => False := by
  rintro _ rfl
  have owes : (fresh server peer).Owes answers (delays ++ [final]) := by
    refine ⟨well, respond, ?_⟩
    simp [fresh, Transcript.ledger_nil, ha]
  -- There are no more announcements than bytes, so the fuel suffices.
  have fuel : delays.length ≤ (fresh server peer).unread.length := by
    have := owes.length_le
    rw [List.length_append] at this
    omega
  exact readGreeting_meets hd hf fuel _ ⟨rfl, rfl, owes⟩

omit hs in
/-- The greeting is read and then checked. -/
theorem greet_of_read {peer : String} {greeted : FtpReply → Connection → Prop}
    {post : Unit → Connection → Prop} {fails : Connection → Prop}
    (read : Meets (fun c => c = Connection.fresh server peer)
      (readGreeting (fresh server peer).unread.length) greeted fails)
    (checked : ∀ greeting, Meets (greeted greeting)
      (Attempt.ofExcept (check "connect" greeting 2)) post fails) :
    Meets (fun c => c = Connection.fresh server peer) greet post fails := by
  refine Meets.bind (Q := fun c' c => c' = c ∧ c = fresh server peer) (.get fun _ h => ⟨rfl, h⟩)
    fun c' => ?_
  rintro _ ⟨rfl, rfl⟩
  exact read.bind checked _ rfl

/-- A new connection is greeted. -/
theorem greet_meets (peer : String) :
    Meets (fun c => c = Connection.fresh server peer) greet
      (fun _ c => ∃ past, Rests server answers past c)
      (fun c => ∃ past, Rests server answers past c) := by
  obtain ⟨delays, final, ha, hd, hf⟩ := hs.greeting
  have respond := hs.respond_eq []
  rw [ha] at respond
  have read := readGreeting_fresh respond ha (fun r hr => hs.wellFormed [] r (ha ▸ hr)) hd hf peer
  refine greet_of_read (read.or_fails fun _ h => h.elim) fun greeting => ?_
  exact .ofExcept (fun _ _ _ hc => hc.2) fun _ _ _ hc => hc.2

omit hs in
/-- On a connection in step, a pending reply is there to be read. -/
theorem drain_meets :
    Meets (fun c => c.server = server ∧ c.InStep answers ∧ c.heard = past) drain
      (fun _ => Rests server answers past) fun _ => False := by
  rintro c ⟨rfl, ⟨owed, owes, final, length⟩, rfl⟩
  cases hstate : c.state with
  | idle =>
    obtain rfl : owed = [] := by simpa [hstate] using length
    rw [drain, if_pos hstate]
    exact ⟨rfl, hstate, owes, Plain.refl c⟩
  | awaitingReply =>
    obtain ⟨last, rfl⟩ : ∃ last, owed = [last] := by
      simpa [hstate, List.length_eq_one_iff] using length
    obtain ⟨read, owes'⟩ := readReply_of_owes owes
    have plain := (Plain.refl c).hear (final last (by simp)).not_preliminary []
    rw [drain, if_neg (by simp [hstate]), read]
    exact ⟨rfl, rfl, ⟨owes'.wellFormed, owes'.unread_eq, owes'.ledger_eq⟩, plain⟩

/-! ## Transfers -/

theorem dial_meets (port : Nat) :
    Meets (Rests server answers past) (dial port)
      (fun _ => Rests server answers past) (Rests server answers past) := by
  intro c hc
  obtain rfl := hc.server_eq
  have owes := hc.owes.tell hs (.dialled c.peer port) (Or.inl rfl)
  rw [hs.dialled, List.append_nil] at owes
  have rests : Rests c.server answers past (c.tell (.dialled c.peer port)) :=
    ⟨rfl, hc.idle, owes, hc.plain⟩
  rw [dial]
  dsimp only
  cases (c.tell (.dialled c.peer port)).server.refused
    (c.tell (.dialled c.peer port)).transcript with
  | none => exact rests
  | some cause => exact rests

/-- A transfer is begun, or is refused before anything more is owed. -/
theorem openData_meets {line : String} (hl : IsOneLine line)
    (ht : IsDownload line ∨ IsUpload line) :
    Meets (Rests server answers past) (openData line)
      (fun _ c => ∃ owed, Begun server answers past c line owed)
      (Rests server answers past) := by
  apply (expect_meets hs isPlain_passive 2).bind
  intro reply
  refine Meets.bind (Q := fun _ => Rests server answers past) ?_ fun port => ?_
  · exact .ofExcept (fun _ _ _ hc => hc) fun _ _ _ hc => hc
  apply (dial_meets hs port).bind
  -- The transfer is asked for: it is refused at once, or begins.
  intro _ c hc
  obtain rfl := hc.server_eq
  obtain ⟨r, owed, ha, answered⟩ := hs.transfer c.transcript hl ht
  rcases command_cases hs hc.owes hc.idle ha with ⟨fault, h⟩ | ⟨h, owes⟩
  · rw [Attempt.bind_of_error h]
    exact hc
  · rw [Attempt.bind_of_ok h, WireReply.group_reply]
    rcases answered with ⟨final, rfl⟩ | preliminary
    · have refused : r.group ≠ 1 := final.not_preliminary
      rw [if_neg refused]
      exact ⟨rfl, hc.idle, owes, Plain.hear (c := c.tell _) hc.plain final.not_preliminary []⟩
    · have accepted : r.group = 1 := preliminary
      rw [if_pos accepted]
      exact ⟨owed, rfl, hc.idle, owes, Plain.accept (c := c.tell _) hc.plain preliminary owed,
        c.transcript, r, rfl, ha, preliminary⟩

/-- After a download has begun, its last reply is all that is owed. -/
theorem Begun.download {line : String} {owed : List WireReply}
    (h : Begun server answers past c line owed) (hl : IsOneLine line) (hd : IsDownload line) :
    ∃ last, owed = [last] ∧ last.IsFinal := by
  obtain ⟨t, r, -, ha, preliminary⟩ := h.told
  rcases hs.download t line hl hd with ⟨r', hr, final⟩ | ⟨first, last, hr, -, final⟩
  · obtain ⟨rfl, -⟩ : r = r' ∧ _ := by simpa using ha.symm.trans hr
    exact absurd preliminary final.not_preliminary
  · obtain ⟨-, rfl⟩ : r = first ∧ owed = [last] := by simpa using ha.symm.trans hr
    exact ⟨last, rfl, final⟩

variable (past) in
/-- A download that was accepted leaves its last reply pending. -/
theorem download_meets {path : String} (hp : IsOneLine path) :
    Meets (Rests server answers past) (download path)
      (fun _ c => c.server = server ∧ c.InStep answers) (Rests server answers past) := by
  have line := isOneLine_retrieve hp
  have isDownload := isDownload_retrieve path
  apply (Meets.discard (expect_meets hs isPlain_image 2)).bind
  intro _
  apply (openData_meets hs line (Or.inl isDownload)).bind
  intro _
  refine Meets.bind (Q := fun _ c => c.server = server ∧ c.InStep answers) ?_ fun _ => ?_
  · apply Meets.modify
    intro c hc
    obtain ⟨owed, begun⟩ := hc
    obtain ⟨last, rfl, final⟩ := begun.download hs line isDownload
    exact ⟨begun.server_eq, [last],
      ⟨begun.owes.wellFormed, begun.owes.unread_eq, begun.owes.ledger_eq⟩, by simpa, rfl⟩
  · refine Meets.bind (Q := fun _ c => c.server = server ∧ c.InStep answers) ?_ fun _ => ?_
    · exact .get fun _ hc => hc
    · exact .pure fun _ hc => hc

/-- The listing that the server was asked for last cannot be read. -/
def ListingFails (c : Connection) : Prop :=
  ∃ t directory fault, c.transcript = t ++ [.sent (wire (listingCommand directory))] ∧
    Listing.names (c.server.download c.transcript) = .error fault

variable (past) in
/-- A listing is read to its last reply, unless its data cannot be read. -/
theorem listing_meets {directory : String} (hd : IsOneLine directory) :
    Meets (Rests server answers past) (listing directory)
      (fun _ c => Completed server answers past c ListingFails)
      (fun c => Completed server answers past c ListingFails ∨
        Unfinished server answers past c ListingFails) := by
  have line := isOneLine_listing hd
  have isDownload := isDownload_listing directory
  have rests : ∀ c, Rests server answers past c →
      Completed server answers past c ListingFails ∨
        Unfinished server answers past c ListingFails :=
    fun c hc => Or.inl (hc.completed _)
  refine (Meets.discard (expect_meets hs isPlain_text 2)).or_fails rests |>.bind fun _ => ?_
  refine (openData_meets hs line (Or.inl isDownload)).or_fails rests |>.bind fun _ => ?_
  -- The transfer has been accepted, and its last reply is owed.
  refine Meets.bind (Q := fun c' c => c' = c ∧ Unfinished server answers past c fun c =>
    ∃ t, c.transcript = t ++ [.sent (wire (listingCommand directory))]) ?_ fun c' => ?_
  · apply Meets.get
    intro c hc
    obtain ⟨owed, begun⟩ := hc
    obtain ⟨last, rfl, final⟩ := begun.download hs line isDownload
    obtain ⟨t, -, ht, -⟩ := begun.told
    exact ⟨rfl, begun.server_eq, begun.idle, ⟨last, begun.owes, final⟩, begun.accepted, t, ht⟩
  -- Names that cannot be read end the dialogue before that reply is read.
  refine Meets.bind (Q := fun _ c => Unfinished server answers past c fun c =>
    ¬ ListingFails c) ?_ fun names => ?_
  · refine .ofExcept ?_ ?_
    · rintro names hnames c ⟨rfl, hc⟩
      refine ⟨hc.server_eq, hc.idle, hc.owes, hc.accepted, ?_⟩
      rintro ⟨-, -, fault, -, hfault⟩
      rw [hfault] at hnames
      simp [Except.mapError] at hnames
    · rintro e he c ⟨rfl, hc⟩
      obtain ⟨t, ht⟩ := hc.data
      refine Or.inr ⟨hc.server_eq, hc.idle, hc.owes, hc.accepted, ?_⟩
      cases hnames : Listing.names (c'.server.download c'.transcript) with
      | ok names => simp [hnames, Except.mapError] at he
      | error fault => exact ⟨t, directory, fault, ht, hnames⟩
  refine (readReply_meets fun _ _ _ h => h).or_fails (fun _ h => h.elim) |>.bind fun reply => ?_
  refine Meets.bind (Q := fun _ c => Completed server answers past c ListingFails) ?_
    fun _ => .pure fun _ h => h
  exact .ofExcept (fun _ _ _ hc => hc) fun _ _ _ hc => Or.inl hc

/-- The feed that was uploaded last cannot be sent to its end. -/
def UploadFails (feed : Feed) (c : Connection) : Prop :=
  ∃ t bytes fault, c.transcript = t ++ [.uploaded bytes] ∧
    (copy (uplink c.server t) feed []).result = .error fault

/-- After an upload has begun, nothing is owed until its data has been sent. -/
theorem Begun.upload {line : String} {owed : List WireReply}
    (h : Begun server answers past c line owed) (hl : IsOneLine line) (hu : IsUpload line) :
    owed = [] := by
  obtain ⟨t, r, -, ha, -⟩ := h.told
  obtain ⟨r', hr, -⟩ := hs.upload t line hl hu
  obtain ⟨-, rfl⟩ : r = r' ∧ owed = [] := by simpa using ha.symm.trans hr
  rfl

/-- Once the data has been sent, the last reply to the upload is all that is owed. -/
theorem Begun.sends {line : String} (h : Begun server answers past c line [])
    (hl : IsOneLine line) (hu : IsUpload line) (bytes : Bytes) :
    ∃ t r last, c.transcript = t ++ [.sent (wire line)] ∧
      answers (t ++ [.sent (wire line)]) = [r] ∧ r.IsPreliminary ∧
      answers (c.tell (.uploaded bytes)).transcript = [last] ∧ last.IsFinal ∧
      (c.tell (.uploaded bytes)).Owes answers [last] := by
  obtain ⟨t, r, ht, ha, preliminary⟩ := h.told
  obtain ⟨last, hlast, final⟩ := hs.uploaded t line bytes r hl hu ha preliminary
  obtain rfl := h.server_eq
  have owes := h.owes.tell hs (.uploaded bytes) (Or.inl rfl)
  rw [List.nil_append, ht, hlast] at owes
  exact ⟨t, r, last, ht, ha, preliminary, by rw [tell, ht, hlast], final, owes⟩

theorem Begun.unfinished {line : String} (h : Begun server answers past c line [])
    (hl : IsOneLine line) (hu : IsUpload line) {bytes : Bytes} {data : Connection → Prop}
    (hdata : data (c.tell (.uploaded bytes))) :
    Unfinished server answers past (c.tell (.uploaded bytes)) data := by
  obtain ⟨t, r, last, -, -, -, -, final, owes⟩ := h.sends hs hl hu bytes
  exact ⟨h.server_eq, h.idle, ⟨last, owes, final⟩, h.accepted, hdata⟩

omit hs in
/-- A dialogue beside which a feed is kept. -/
theorem beside_meets {α : Type} (rest : Feed → Prop) {pre fails : Connection → Prop}
    {x : Session α} {post : α → Connection → Prop} (h : Meets pre x post fails) :
    Meets (fun s : Feed × Connection => rest s.1 ∧ pre s.2) (x.on (·.2) fun c s => (s.1, c))
      (fun a s => rest s.1 ∧ post a s.2) fun s => rest s.1 ∧ fails s.2 :=
  .on (fun s : Feed × Connection => rest s.1) (fun _ _ => rfl) (fun _ _ h => h) h

/-- The end of an upload, once its data connection is open. -/
def sendUpload : Attempt (Feed × Connection) FtpFault Nat := do
  let (feed, c) ← Attempt.get
  let result := copy (uplink c.server c.transcript) feed []
  Attempt.set (result.left, c.tell (.uploaded result.sink))
  let sent ← Attempt.ofExcept (result.result.mapError FtpFault.io)
  let reply ← readReply.on (·.2) fun c s => (s.1, c)
  (Attempt.ofExcept (check "STOR" reply 2)).on (·.2) fun c s => (s.1, c)
  return sent

/-- An upload is refused before anything more is owed, or comes to what its end comes to. -/
theorem upload_of_begun {name : String} (hn : IsOneLine name) {feed : Feed}
    {post : Nat → Feed × Connection → Prop} {fails : Feed × Connection → Prop}
    (refused : ∀ s, s.1 = feed ∧ Rests server answers past s.2 → fails s)
    (begun : Meets (fun s => s.1 = feed ∧ Begun server answers past s.2 ("STOR " ++ name) [])
      sendUpload post fails) :
    Meets (fun s => s.1 = feed ∧ Rests server answers past s.2) (upload name) post fails := by
  have line := isOneLine_store hn
  have isUpload := isUpload_store name
  refine (beside_meets (· = feed) (expect_meets hs isPlain_image 2)).discard.or_fails
    refused |>.bind fun _ => ?_
  refine (beside_meets (· = feed) (openData_meets hs line (Or.inr isUpload))).or_fails
    refused |>.bind fun _ => ?_
  refine begun.weaken (fun s ⟨hfeed, owed, hs'⟩ => ?_) (fun _ _ h => h) fun _ h => h
  obtain rfl := hs'.upload hs line isUpload
  exact ⟨hfeed, hs'⟩

variable (past) in
/-- An upload is read to its last reply, unless its data cannot be sent. -/
theorem upload_meets {name : String} (hn : IsOneLine name) (feed : Feed) :
    Meets (fun s => s.1 = feed ∧ Rests server answers past s.2) (upload name)
      (fun _ s => Completed server answers past s.2 (UploadFails feed))
      (fun s => Completed server answers past s.2 (UploadFails feed) ∨
        Unfinished server answers past s.2 (UploadFails feed)) := by
  have line := isOneLine_store hn
  have isUpload := isUpload_store name
  refine upload_of_begun hs hn (fun s hs => Or.inl (hs.2.completed _)) ?_
  refine Meets.bind (Q := fun s' s => s' = s ∧ s.1 = feed ∧
    Begun server answers past s.2 ("STOR " ++ name) []) (.get fun s h => ⟨rfl, h⟩) fun s' => ?_
  obtain ⟨feed', c⟩ := s'
  -- Whatever has become of the copy, the data connection is closed and the last reply is owed.
  refine Meets.bind (Q := fun _ s => Unfinished server answers past s.2 fun c' =>
    (∃ fault, (copy (uplink c.server c.transcript) feed' []).result = .error fault) ↔
      UploadFails feed c') ?_ fun _ => ?_
  · rintro _ ⟨rfl, rfl, begun⟩
    refine begun.unfinished hs line isUpload ?_
    constructor
    · rintro ⟨fault, h⟩
      exact ⟨c.transcript, _, fault, rfl, h⟩
    · rintro ⟨t, bytes, fault, ht, h⟩
      obtain ⟨rfl, -⟩ := List.append_inj' ht rfl
      exact ⟨fault, h⟩
  -- A copy that failed ends the dialogue before that reply is read.
  refine Meets.bind (Q := fun _ s => Unfinished server answers past s.2 fun c' =>
    ¬ UploadFails feed c') ?_ fun sent => ?_
  · refine .ofExcept ?_ ?_
    · intro sent hsent s hc
      refine ⟨hc.server_eq, hc.idle, hc.owes, hc.accepted, ?_⟩
      rw [← hc.data]
      rintro ⟨fault, hfault⟩
      simp [hfault, Except.mapError] at hsent
    · intro e he s hc
      refine Or.inr ⟨hc.server_eq, hc.idle, hc.owes, hc.accepted, hc.data.mp ?_⟩
      cases hresult : (copy (uplink c.server c.transcript) feed' []).result with
      | ok sent => simp [hresult, Except.mapError] at he
      | error fault => exact ⟨fault, rfl⟩
  have read : Meets (fun c => Unfinished server answers past c fun c' => ¬ UploadFails feed c')
      readReply (fun _ c => Completed server answers past c (UploadFails feed)) fun _ => False :=
    readReply_meets fun _ _ _ h => h
  refine Meets.bind ((read.part fun _ _ => rfl).or_fails fun _ h => h.elim) fun reply => ?_
  refine Meets.bind (Q := fun _ s => Completed server answers past s.2 (UploadFails feed)) ?_
    fun _ => .pure fun _ h => h
  intro s hc
  cases check "STOR" reply 2 with
  | ok _ => exact hc
  | error _ => exact Or.inl hc

end Conforming

end Connection

end InstallMedia
