import InstallMedia.Proofs.Ftp.History
import InstallMedia.Proofs.Ftp.Session

/-!
# Sites and pending replies

Whatever the servers send, a site uses its control connections in an orderly way: it says nothing
while a reply is pending, so that no command is refused because of one.  This holds of every session
over every run of calls.

## Main definitions

* `Connection.Orderly`: uses of which none but a drain comes while a reply is pending
* `Connection.WellUsed`: a connection that was greeted and then used in such a way
* `FtpSource.Orderly`, `FtpSource.KeepsOrder`: what every call preserves

## Main results

* `FtpSource.perform_keepsOrder`: every call uses its connection well and fails for other reasons
* `FtpSource.reply_discipline`: what becomes of a pending reply
-/

namespace InstallMedia

open Attempt (Ends)

/-- The error of a call of which a command was not sent because a reply is pending. -/
def SourceError.IsPending : SourceError → Prop
  | protocol (.ftp fault) => fault.IsPending
  | _ => False

theorem not_isPending_of_percentDecode {name : String} {e : SourceError}
    (h : percentDecode name = .error e) : ¬ e.IsPending := by
  obtain ⟨fault, -, rfl⟩ := mapError_eq_error_iff.mp h
  exact id

theorem Address.not_isPending_of_decodePart {part : Option String} {e : SourceError}
    (h : decodePart part = .error e) : ¬ e.IsPending := by
  cases part with
  | none => simp [decodePart] at h
  | some encoded => exact not_isPending_of_percentDecode (map_eq_error_iff.mp h)

theorem FtpFault.not_isPending_errorFor (name : String) {fault : FtpFault}
    (h : ¬ fault.IsPending) : ¬ (fault.errorFor name).IsPending := by
  rw [errorFor]
  split
  · exact id
  · exact h

namespace Connection

/-! ## Uses in order -/

/-- No use but a drain comes while a reply is pending, and none is refused because of one. -/
def Orderly (past : List Step) : Prop :=
  ∀ before use outcome after, past = before ++ (use, outcome) :: after →
    (use ≠ .drain → ¬ Owing before) ∧ ∀ fault, outcome = .error fault → ¬ fault.IsPending

theorem orderly_nil : Orderly [] := by
  intro before use outcome after h
  simp at h

theorem Orderly.concat {past : List Step} (h : Orderly past) {use : Use}
    {outcome : Except FtpFault Unit} (clear : use ≠ .drain → ¬ Owing past)
    (not_pending : ∀ fault, outcome = .error fault → ¬ fault.IsPending) :
    Orderly (past ++ [(use, outcome)]) := by
  intro before use' outcome' after hs
  rcases List.eq_nil_or_concat after with rfl | ⟨after, last, rfl⟩
  · obtain ⟨rfl, same⟩ := List.append_inj' hs rfl
    obtain ⟨rfl, rfl⟩ : use = use' ∧ outcome = outcome' := by simpa using same
    exact ⟨clear, not_pending⟩
  · rw [List.concat_eq_append, ← List.cons_append, ← List.append_assoc] at hs
    obtain ⟨rfl, -⟩ := List.append_inj' hs rfl
    exact h _ _ _ _ rfl

/-- A connection that was greeted, well or not, and then used in an orderly way. -/
def WellUsed (c : Connection) : Prop :=
  ∃ server peer past, History (greet (.fresh server peer)).2 past c ∧ Orderly past

theorem greet_fresh (server : FtpServer) (peer : String) :
    (greet (.fresh server peer)).2.state = .idle :=
  greet_unhindered.snd (fun _ _ idle => idle) (fun _ _ h => h.1) rfl

/-- A use of an idle connection, or a drain, leaves the connection well used. -/
theorem WellUsed.perform {c : Connection} (h : WellUsed c) (use : Use)
    (clear : use ≠ .drain → c.state = .idle) (feed : Feed) :
    WellUsed (use.perform (feed, c)).2.2 ∧
      ∀ fault, (use.perform (feed, c)).1 = .error fault → ¬ fault.IsPending := by
  obtain ⟨server, peer, past, history, orderly⟩ := h
  have not_pending : ∀ fault, (use.perform (feed, c)).1 = .error fault → ¬ fault.IsPending := by
    intro fault h
    -- A drain sends nothing that could be refused, and every other use finds the connection idle.
    by_cases drain : use = .drain
    · subst drain
      rw [Use.perform, Attempt.discard_apply, Use.alone, Attempt.on_apply] at h
      exact (drain_eq_error (Prod.ext (map_eq_error_iff.mp h) rfl)).2.2
    · exact (use.perform_unhindered.of_error (s := (feed, c)) (clear drain) h).2
  have not_owing : use ≠ .drain → ¬ Owing past := by
    intro not_drain
    rw [← history.awaiting_iff_owing (greet_fresh server peer), clear not_drain]
    simp
  exact ⟨⟨server, peer, _, history.snoc use feed, orderly.concat not_owing not_pending⟩,
    not_pending⟩

theorem use_ends {α : Type} {x : Attempt (Feed × Connection) FtpFault α} (use : Use)
    (same : use.perform = discard x) :
    Ends (fun s => WellUsed s.2 ∧ s.2.state = .idle) x
      (fun _ s => WellUsed s.2 ∧ s.2.state = use.leaves)
      fun fault s => WellUsed s.2 ∧ ¬ fault.IsPending := by
  rintro ⟨feed, c⟩ ⟨well, idle⟩
  have used := well.perform use (fun _ => idle) feed
  have ended := use.perform_unhindered (feed, c) idle
  rw [same, Attempt.discard_apply] at used ended
  cases hx : x (feed, c) with
  | mk result s =>
    rw [hx] at used ended
    cases result with
    | ok a => exact ⟨used.1, ended⟩
    | error fault => exact ⟨used.1, ended.2⟩

theorem session_ends {α : Type} {x : Session α} (use : Use)
    (same : use.perform = discard (Use.alone x)) :
    Ends (fun c => WellUsed c ∧ c.state = .idle) x
      (fun _ c => WellUsed c ∧ c.state = use.leaves)
      fun fault c => WellUsed c ∧ ¬ fault.IsPending := by
  intro c hc
  have ended := use_ends use same ([], c) hc
  rw [Use.alone, Attempt.on_apply] at ended
  cases hx : x c with
  | mk result c' =>
    rw [hx] at ended
    cases result <;> exact ended

theorem drain_ends :
    Ends WellUsed drain (fun _ c => WellUsed c ∧ c.state = .idle)
      fun fault c => WellUsed c ∧ ¬ fault.IsPending := by
  intro c well
  have used := (well.perform .drain (fun h => absurd rfl h) []).1
  rw [Use.perform, Attempt.discard_apply, Use.alone, Attempt.on_apply] at used
  cases hd : drain c with
  | mk result c' =>
    rw [hd] at used
    cases result with
    | ok answer => exact ⟨used, state_of_drain hd⟩
    | error fault => exact ⟨used, (drain_eq_error hd).2.2⟩

theorem greet_ends (server : FtpServer) (peer : String) :
    Ends (fun c => c = .fresh server peer) greet (fun _ c => WellUsed c ∧ c.state = .idle)
      fun fault c => WellUsed c ∧ ¬ fault.IsPending := by
  rintro c rfl
  have greeted := greet_unhindered (.fresh server peer) rfl
  have well : WellUsed (greet (.fresh server peer)).2 := ⟨server, peer, [], .nil, orderly_nil⟩
  cases hg : greet (.fresh server peer) with
  | mk result c =>
    rw [hg] at greeted well
    cases result with
    | ok _ => exact ⟨well, greeted⟩
    | error fault => exact ⟨well, greeted.2⟩

end Connection

open Connection (WellUsed)

namespace FtpSource

/-! ## Dialogues of a site -/

/-- A dialogue that is held on an idle connection: the connection stays well used, success leaves it
in the state `ends`, and failure has another reason than a pending reply. -/
def Careful {σ α : Type} (view : σ → Connection) (x : Attempt σ SourceError α)
    (ends : ReplyState) : Prop :=
  Ends (fun s => WellUsed (view s) ∧ (view s).state = .idle) x
    (fun _ s => WellUsed (view s) ∧ (view s).state = ends)
    fun e s => WellUsed (view s) ∧ ¬ e.IsPending

/-- A name that cannot be decoded is no reason to touch the connection. -/
theorem Careful.decode {σ α : Type} {view : σ → Connection} {name : String}
    {x : String → Attempt σ SourceError α} {ends : ReplyState}
    (h : ∀ path, Careful view (x path) ends) :
    Careful view (Attempt.ofExcept (percentDecode name) >>= x) ends :=
  Ends.ofExcept_bind (fun path _ => h path) fun _ he _ hs =>
    ⟨hs.1, not_isPending_of_percentDecode he⟩

theorem dialogue_careful {α : Type} {x : Session α} (use : Connection.Use)
    (same : use.perform = discard (Connection.Use.alone x)) {f : FtpFault → SourceError}
    (hf : ∀ fault, ¬ fault.IsPending → ¬ (f fault).IsPending) :
    Careful (·.2) (dialogue x f) use.leaves := by
  have told : Careful id (x.mapError f) use.leaves :=
    (Connection.session_ends use same).mapError fun fault _ h => ⟨h.1, hf fault h.2⟩
  exact Ends.part (fun _ _ => rfl) told

/-- The greeting, well or not, and what follows it use the connection well.  A session begins
without a pending reply. -/
theorem opening_ends (a : Address) (server : FtpServer) (peer : String) :
    Ends (fun c => c = .fresh server peer) (opening a) (fun _ c => WellUsed c ∧ c.state = .idle)
      fun e c => WellUsed c ∧ ¬ e.IsPending := by
  apply ((Connection.greet_ends server peer).mapError fun _ _ h => h).bind
  intro _
  refine .ofExcept_bind (fun username _ => ?_) fun _ he _ h =>
    ⟨h.1, Address.not_isPending_of_decodePart he⟩
  refine .ofExcept_bind (fun password _ => ?_) fun _ he _ h =>
    ⟨h.1, Address.not_isPending_of_decodePart he⟩
  apply ((Connection.session_ends (.login username password) rfl).mapError fun _ _ h => h).bind
  intro _
  refine .ofExcept_bind (fun directory _ => ?_) fun _ he _ h =>
    ⟨h.1, not_isPending_of_percentDecode he⟩
  split
  · exact (Connection.session_ends (.changeDirectory directory) rfl).mapError fun _ _ h => h
  · exact Ends.pure fun _ h => h

/-- The goodbye is not said before a pending reply has been read. -/
theorem closing_ends :
    Ends WellUsed closing (fun _ => WellUsed) fun fault c => WellUsed c ∧ ¬ fault.IsPending := by
  apply Connection.drain_ends.discard.bind
  intro _
  exact (Connection.session_ends .quit rfl).weaken (fun _ h => h) (fun _ _ h => h.1) fun _ _ h => h

/-! ## Calls -/

/-- The connection of the session, if there is one, was used well. -/
def UsedWell (s : FtpSource) : Prop := ∀ c others, s.session = .held c others → WellUsed c

/-- The connections that have ended since the `first` world were used well. -/
def EndedWell (first w : World) : Prop :=
  ∃ new, w.ended = first.ended ++ new ∧ ∀ c ∈ new, WellUsed c

/-- What every call preserves. -/
structure Orderly (first : World) (s : FtpSource × World) : Prop where
  session : UsedWell s.1
  ended : EndedWell first s.2

theorem usedWell_of_idle {s : FtpSource} (idle : s.session = .idle) : UsedWell s := by
  rw [UsedWell, idle]
  exact Counted.forall_idle

theorem usedWell_of_held {c : Connection} (well : WellUsed c) (s : FtpSource) (others : Nat) :
    UsedWell { s with session := .held c others } :=
  Counted.forall_held well others

theorem EndedWell.refl (w : World) : EndedWell w w := ⟨[], by simp, by simp⟩

theorem EndedWell.hangUp {first w : World} (h : EndedWell first w) {c : Connection}
    (well : WellUsed c) : EndedWell first (w.hangUp c) := by
  obtain ⟨new, ended, hnew⟩ := h
  refine ⟨new ++ [c], ?_, ?_⟩
  · rw [World.hangUp, ended, List.append_assoc]
  · intro c' hc'
    rcases List.mem_append.mp hc' with hc' | hc'
    · exact hnew c' hc'
    · rwa [List.mem_singleton.mp hc']

/-- An operation drains the connection before it uses it. -/
theorem onIdle_ends {σ α : Type} (name : String) {x : Attempt (σ × Connection) SourceError α}
    {ends : ReplyState} (hx : Careful (·.2) x ends) :
    Ends (fun p : σ × FtpSource => UsedWell p.2) (onIdle name x) (fun _ p => UsedWell p.2)
      fun e p => UsedWell p.2 ∧ ¬ e.IsPending := by
  rintro ⟨a, s⟩ well
  rw [onIdle]
  cases held : s.session with
  | idle => exact ⟨well, id⟩
  | held c others =>
    -- The reply is read first; if that fails, nothing else is tried.
    have drained := Connection.drain_ends c (well c others held)
    dsimp only
    cases hd : Connection.drain c with
    | mk result c₁ =>
      rw [hd] at drained
      cases result with
      | error fault => exact ⟨usedWell_of_held drained.1 s others, drained.2⟩
      | ok _ =>
        have ran := hx (a, c₁) drained
        dsimp only
        cases hr : x (a, c₁) with
        | mk result p =>
          rw [hr] at ran
          cases result with
          | ok _ => exact usedWell_of_held ran.1 s others
          | error e => exact ⟨usedWell_of_held ran.1 s others, ran.2⟩

/-- What a call comes to: it leaves the site orderly, and if it fails, another reason than a pending
reply. -/
def KeepsOrder (first : World) {α : Type} (x : Operation FtpSource α) : Prop :=
  Ends (Orderly first) x (fun _ => Orderly first) fun e s => Orderly first s ∧ ¬ e.IsPending

variable {first : World}

theorem beside_keepsOrder {α : Type} (name : String) {x : Attempt (Unit × Connection) SourceError α}
    {ends : ReplyState} (hx : Careful (·.2) x ends) :
    KeepsOrder first (beside (onIdle name x)) := by
  rintro ⟨s, w⟩ ⟨well, ended⟩
  have ran := onIdle_ends name hx ((), s) well
  rw [beside, Attempt.on_apply]
  dsimp only
  cases hr : onIdle name x ((), s) with
  | mk result p =>
    rw [hr] at ran
    cases result with
    | ok _ => exact ⟨ran, ended⟩
    | error e => exact ⟨⟨ran.1, ended⟩, ran.2⟩

theorem openFile_keepsOrder (name : String) : KeepsOrder first (openFile name) := by
  apply beside_keepsOrder name
  apply Careful.decode
  intro path
  have told := dialogue_careful (.download path) rfl fun _ => FtpFault.not_isPending_errorFor name
  exact told.bind_pure _

theorem listed_keepsOrder (name : String) : KeepsOrder first (listed name) := by
  apply beside_keepsOrder name
  apply Careful.decode
  intro path
  have told := dialogue_careful (f := FtpFault.error) (.listing (place path).1) rfl fun _ h => h
  exact told.bind_pure _

theorem upload_ends (name : String) :
    Ends (fun p : Feed × FtpSource => UsedWell p.2) (upload name) (fun _ p => UsedWell p.2)
      fun e p => UsedWell p.2 ∧ ¬ e.IsPending := by
  apply onIdle_ends name
  apply Careful.decode
  intro path
  exact ((Connection.use_ends (.upload path) rfl).mapError fun _ _ h => h).discard

/-- The first start greets and logs in; the others do nothing. -/
theorem start_keepsOrder : KeepsOrder first start := by
  rintro ⟨s, w⟩ ⟨well, ended⟩
  have started := starts s w
  generalize start (s, w) = outcome at started
  cases started with
  | again c others more held => exact ⟨usedWell_of_held (well c others held) s more, ended⟩
  | refused => exact ⟨⟨usedWell_of_idle rfl, ended⟩, id⟩
  | opened dialled past host port server c idle found spoke =>
    have opened := opening_ends s.address server host (.fresh server host) rfl
    rw [spoke] at opened
    exact ⟨usedWell_of_held opened.1 s 0, ended⟩
  | failed dialled past host port server c e idle found spoke =>
    have opened := opening_ends s.address server host (.fresh server host) rfl
    rw [spoke] at opened
    exact ⟨⟨usedWell_of_idle rfl, EndedWell.hangUp ended opened.1⟩, opened.2⟩

/-- The last finish drains the connection and says goodbye; the others do nothing. -/
theorem finish_keepsOrder : KeepsOrder first finish := by
  rintro ⟨s, w⟩ ⟨well, ended⟩
  have finished := finishes s w
  generalize finish (s, w) = outcome at finished
  cases finished with
  | unheld => exact ⟨usedWell_of_idle rfl, ended⟩
  | last c held =>
    have closed := closing_ends.snd (fun _ _ h => h) (fun _ _ h => h.1) (well c 0 held)
    exact ⟨usedWell_of_idle rfl, ended.hangUp closed⟩
  | others c left held => exact ⟨usedWell_of_held (well c _ held) s left, ended⟩

/-- A call leaves a site orderly, and if it fails, it has another reason than a pending reply. -/
theorem perform_keepsOrder (call : Call) : KeepsOrder first call.perform := by
  cases call with
  | start => exact start_keepsOrder
  | finish => exact finish_keepsOrder
  | openFile name =>
    have same : (Call.openFile name).perform = discard (openFile name) :=
      funext fun s => (Attempt.discard_apply (openFile name) s).symm
    rw [same]
    exact (openFile_keepsOrder name).discard
  | has name =>
    intro s h
    change Orderly first (Source.has name s).2
    rw [has_snd]
    exact (listed_keepsOrder name).snd (fun _ _ h => h) (fun _ _ h => h.1) h
  | store name stream =>
    rintro ⟨s, w⟩ ⟨well, ended⟩
    have ran := upload_ends name (stream.contents w.files, s) well
    have same : (Call.store name stream).perform (s, w) =
      ((Source.store name (stream, s, w)).1, (Source.store name (stream, s, w)).2.2) := rfl
    rw [same, store_fst, store_snd]
    by_cases readOnly : s.readOnly = true
    · rw [if_pos readOnly, if_pos readOnly]
      exact ⟨⟨well, ended⟩, id⟩
    · rw [if_neg readOnly, if_neg readOnly]
      split at ran
      · rename_i hr
        rw [hr]
        exact ⟨ran, ended⟩
      · rename_i hr
        rw [hr]
        exact ⟨⟨ran.1, ended⟩, ran.2⟩

/-- **What becomes of a pending reply**, whatever the servers send.  While it is pending, every use
of the connection but a drain is refused and does nothing at all.  It is pending exactly from a
download that succeeds to the next drain that does.  A drain succeeds exactly if the server has sent
a reply and takes this one, whatever its code; otherwise the reply stays pending.  And whatever is
called in whatever order, a site says nothing while a reply is pending, and no call fails because of
one: not even inside the search of a listing, or in the goodbye. -/
theorem reply_discipline :
    (∀ (use : Connection.Use) (feed : Feed) (c : Connection), use ≠ .drain →
      c.state = .awaitingReply →
        use.perform (feed, c) = (.error (.replyPending use.verb), feed, c)) ∧
    (∀ server peer past c,
      Connection.History (Connection.greet (.fresh server peer)).2 past c →
        (c.state = .awaitingReply ↔ Connection.Owing past)) ∧
    (∀ c : Connection, c.state = .awaitingReply →
      (∀ answer c', Connection.drain c = (.ok answer, c') ↔
        ∃ reply rest, answer = some reply ∧ c.Offers reply rest ∧
          c' = { c.take reply rest with state := .idle }) ∧
      ∀ fault c', Connection.drain c = (.error fault, c') →
        ∃ rest, c' = { c with unread := rest }) ∧
    ∀ (s : FtpSource) (w : World) (calls : List Call), s.session = .idle →
      let s' := Call.run calls (s, w)
      Orderly w s' ∧
        (∀ (call : Call) e, (call.perform s').1 = .error e → ¬ e.IsPending) ∧
        (∀ name e, (listed name s').1 = .error e → ¬ e.IsPending) ∧
        ∀ c others fault, s'.1.session = .held c others → (closing c).1 = .error fault →
          ¬ fault.IsPending := by
  refine ⟨fun use feed c not_drain awaiting => ?_, fun server peer past c history => ?_,
    fun c awaiting => ⟨fun answer c' => ?_, fun fault c' h => ?_⟩, fun s w calls idle => ?_⟩
  · exact Connection.Use.perform_of_awaiting awaiting not_drain feed
  · exact history.awaiting_iff_owing (Connection.greet_fresh server peer)
  · exact Connection.drain_eq_ok_iff awaiting
  · exact (Connection.drain_eq_error h).2.1
  -- A run keeps order, and what fails after it fails for reasons that a single call can have.
  · intro s'
    have start : Orderly w (s, w) := ⟨usedWell_of_idle idle, .refl w⟩
    have final : Orderly w s' := Call.run_induction (Orderly w) (fun call _ s h =>
      (perform_keepsOrder call).snd (fun _ _ h => h) (fun _ _ h => h.1) h) start
    refine ⟨final, fun call e h => ?_, fun name e h => ?_, fun c others fault held h => ?_⟩
    · exact ((perform_keepsOrder call).of_error final h).2
    · exact ((listed_keepsOrder name).of_error final h).2
    · exact (closing_ends.of_error (final.session c others held) h).2

/-- While a download from the mirror has not been drained, an upload on its connection is refused;
the site drains it, and the next download succeeds. -/
theorem run_mirror_refuses :
    let s := Call.run [.start, .openFile "a"] (mirror, .obliging [])
    ((Call.openFile "b").perform s).1.toOption = some () ∧
      ∃ c others, s.1.session = .held c others ∧ c.state = .awaitingReply ∧ WellUsed c ∧
        (Connection.Use.upload "b").perform ([.chunk [0x61]], c) =
          (.error (.replyPending "TYPE"), [.chunk [0x61]], c) ∧
        ∃ rest, c.Offers ⟨226, "Transfer complete"⟩ rest := by
  intro s
  have pending : s.1.replyPending = true := by decide +kernel
  have drained : (s.1.session.resource?.map fun c => (Connection.drain c).1.toOption) =
      some (some (some ⟨226, "Transfer complete"⟩)) := by decide +kernel
  have opened : ((Call.openFile "b").perform s).1.toOption = some () := by decide +kernel
  obtain ⟨refuses, -, drains, site⟩ := reply_discipline
  obtain ⟨orderly, -⟩ := site mirror (.obliging []) [.start, .openFile "a"] rfl
  cases held : s.1.session with
  | idle => simp [replyPending, held] at pending
  | held c others =>
    have awaiting : c.state = .awaitingReply := by simpa [replyPending, held] using pending
    refine ⟨opened, c, others, rfl, awaiting, orderly.session c others held,
      refuses (.upload "b") _ c (by simp) awaiting, ?_⟩
    have answer : (Connection.drain c).1.toOption = some (some ⟨226, "Transfer complete"⟩) := by
      simpa [held, Counted.resource?] using drained
    cases hd : Connection.drain c with
    | mk result c' =>
      rw [hd] at answer
      cases result with
      | error fault => simp [Except.toOption] at answer
      | ok reply =>
        obtain ⟨reply', rest, rfl, offers, -⟩ := ((drains c awaiting).1 reply c').mp hd
        obtain rfl : reply' = ⟨226, "Transfer complete"⟩ := by simpa [Except.toOption] using answer
        exact ⟨rest, offers⟩

end FtpSource

end InstallMedia
