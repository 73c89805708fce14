import InstallMedia.Proofs.Ftp.Obliging
import InstallMedia.Proofs.Source.Call
import InstallMedia.Proofs.Text.Split

/-!
# Sessions in step

A session is a control connection between the first start of a site and its last finish.  With a
conforming server it stays in step over every run of calls, as long as the data connections work.
A transfer that was accepted and cannot be read or sent to its end takes it out of step: that is the
only way.

## Main definitions

* `NameIsOneLine`, `Address.IsOneLine`: names and addresses that fit on one line once decoded
* `FtpSource.Starts`, `FtpSource.Finishes`: what a start or a finish of a site comes to
* `Connection.Settled`: in step, or with a transfer that has not been read to its last reply
* `FtpSource.InStep`: what every call preserves

## Main results

* `FtpSource.ofAddress_eq_ok_iff`: which addresses name a site
* `FtpSource.run_heard_eq_ledger`: a session stays in step
* `FtpSource.perform_inStep_iff`: when a transfer takes it out of step
-/

namespace InstallMedia

open Attempt (Meets)
open Connection

/-! ## Names and addresses -/

/-- A name that fits on one line once it is decoded. -/
def NameIsOneLine (name : String) : Prop := ∀ path, percentDecode name = .ok path → IsOneLine path

/-- An address whose parts fit on one line each once they are decoded. -/
structure Address.IsOneLine (a : Address) : Prop where
  username : ∀ name, a.decodedUsername = .ok (some name) → InstallMedia.IsOneLine name
  password : ∀ password, a.decodedPassword = .ok (some password) → InstallMedia.IsOneLine password
  directory : ∀ directory, a.decodedDirectory = .ok directory → InstallMedia.IsOneLine directory

theorem oneLine_of_toOption {x : Except SourceError String} (text : String)
    (h : x.toOption = some text) (oneLine : IsOneLine text) :
    ∀ decoded, x = .ok decoded → IsOneLine decoded := by
  rintro decoded rfl
  obtain rfl : decoded = text := by simpa [Except.toOption] using h
  exact oneLine

/-- A network on which whoever answers conforms and carries data. -/
def Network.Conforms (network : Network) (answers : FtpServer → Transcript → List WireReply) :
    Prop :=
  ∀ past host port server, network.server past host port = .ok server →
    server.Conforms (answers server) ∧ server.CarriesData

/-- The directory of a name fits on one line if the name does. -/
theorem FtpSource.isOneLine_place {path : String} (h : IsOneLine path) :
    IsOneLine (FtpSource.place path).1 := by
  unfold FtpSource.place
  split
  · simp [IsOneLine]
  · rename_i directory file _ hsplit
    obtain ⟨separator, hpath, -⟩ := Split.spec_of_atLast? hsplit
    have cr : '\r' ∉ directory := fun hc => h.1 (by rw [hpath]; exact List.mem_append_left _ hc)
    have lf : '\n' ∉ directory := fun hc => h.2 (by rw [hpath]; exact List.mem_append_left _ hc)
    simpa [IsOneLine] using ⟨cr, lf⟩
  · simp [IsOneLine]

/-! ## Connections after an operation -/

namespace Connection

variable {answers : Transcript → List WireReply} {past : List (Nat × FtpReply)}
  {c : Connection} {failed : Connection → Prop}

/-- A connection that is in step unless a transfer was accepted and has `failed`. -/
inductive Settled (answers : Transcript → List WireReply) (past : List (Nat × FtpReply))
    (failed : Connection → Prop) (server : FtpServer) (c : Connection) : Prop where
  | inStep : c.server = server → c.InStep answers → ¬ (c.Accepted past ∧ failed c) →
    Settled answers past failed server c
  | unfinished : Unfinished server answers past c failed → Settled answers past failed server c

theorem Completed.settled {server : FtpServer} (h : Completed server answers past c failed) :
    Settled answers past failed server c :=
  .inStep h.server_eq h.inStep fun ⟨accepted, hf⟩ => h.not_failed accepted hf

theorem Rests.settled {server : FtpServer} (h : Rests server answers past c) :
    Settled answers past failed server c :=
  (h.completed failed).settled

theorem Settled.server_eq {server : FtpServer} (h : Settled answers past failed server c) :
    c.server = server := by
  cases h with
  | inStep server => exact server
  | unfinished h => exact h.server_eq

theorem Settled.inStep_iff {server : FtpServer} (h : Settled answers past failed server c) :
    c.InStep answers ↔ ¬ (c.Accepted past ∧ failed c) := by
  cases h with
  | inStep _ step not_failed => exact iff_of_true step not_failed
  | unfinished h => exact iff_of_false h.not_inStep fun hn => hn ⟨h.accepted, h.data⟩

theorem Settled.unfinished_of {server : FtpServer} (h : Settled answers past failed server c)
    (accepted : c.Accepted past) (hf : failed c) : Unfinished server answers past c failed := by
  cases h with
  | inStep _ _ not_failed => exact absurd ⟨accepted, hf⟩ not_failed
  | unfinished h => exact h

end Connection

/-- What holds of the resource holds of every resource that is held. -/
theorem Counted.forall_held {α : Type} {P : α → Prop} {resource : α} (h : P resource)
    (others : Nat) : ∀ r n, Counted.held resource others = .held r n → P r := by
  rintro r n ⟨⟩
  exact h

theorem Counted.forall_idle {α : Type} {P : α → Prop} :
    ∀ r n, Counted.idle (α := α) = .held r n → P r := nofun

namespace FtpSource

/-- A site is what an address names that ends with a slash and has a host. -/
theorem ofAddress_eq_ok_iff [InternationalNames] {address : String} {readOnly : Bool}
    {s : FtpSource} :
    ofAddress address readOnly = .ok s ↔
      address.toList.getLast? = some '/' ∧
        ∃ parts, Address.parse address = .ok parts ∧ parts.hostname.isSome = true ∧
          s = { base := address, address := parts, readOnly } := by
  unfold ofAddress
  by_cases slash : address.toList.getLast? = some '/'
  · rw [if_neg (not_not.mpr slash)]
    cases Address.parse address with
    | error e => simp
    | ok parts =>
      cases hostname : parts.hostname with
      | none => simp [hostname]
      | some host =>
        simp only [Option.isNone_some, Bool.false_eq_true, if_false, Except.ok.injEq, slash,
          true_and, exists_eq_left', hostname, Option.isSome_some]
        exact eq_comm
  · simp [slash]

/-! ## Operations on a session -/

section Operations

variable {answers : Transcript → List WireReply} {c : Connection} {others : Nat}
  {s : FtpSource} {w : World} {name : String}

/-- An operation keeps the connection.  The pending reply, if there is one, is read before it
begins. -/
theorem onIdle_of_drain {σ α : Type} (name : String) {x : Attempt (σ × Connection) SourceError α}
    {a : σ} (held : s.session = .held c others) {ready after : Connection → Prop}
    (drained : Meets (fun c' => c' = c) Connection.drain (fun _ => ready) after)
    (hx : Meets (fun p => p.1 = a ∧ ready p.2) x (fun _ p => after p.2) fun p => after p.2) :
    ∃ c', (onIdle name x (a, s)).2.2 = { s with session := .held c' others } ∧ after c' := by
  have found := drained c rfl
  rw [onIdle, held]
  dsimp only
  cases hd : Connection.drain c with
  | mk result c₁ =>
    rw [hd] at found
    cases result with
    | error fault => exact ⟨c₁, rfl, found⟩
    | ok reply => exact ⟨_, rfl, hx.snd (s := (a, c₁)) ⟨rfl, found⟩⟩

/-- An operation finds the connection at rest, if it is in step. -/
theorem onIdle_held {σ α : Type} (name : String) {x : Attempt (σ × Connection) SourceError α}
    {a : σ} (held : s.session = .held c others) (step : c.InStep answers)
    {after : Connection → Prop}
    (hx : Meets (fun p => p.1 = a ∧ Rests c.server answers c.heard p.2) x
      (fun _ p => after p.2) fun p => after p.2) :
    ∃ c', (onIdle name x (a, s)).2.2 = { s with session := .held c' others } ∧ after c' := by
  refine onIdle_of_drain name held (drain_meets.weaken ?_ (fun _ _ h => h) fun _ h => h.elim) hx
  rintro _ rfl
  exact ⟨rfl, step, rfl⟩

theorem dialogue_meets {α : Type} {pre fails : Connection → Prop} {x : Session α}
    {post : α → Connection → Prop} (h : Meets pre x post fails) (f : FtpFault → SourceError) :
    Meets (fun p => pre p.2) (dialogue x f) (fun a p => post a p.2) fun p => fails p.2 :=
  h.mapError.part fun _ _ => rfl

theorem beside_snd {α : Type} (x : Attempt (Unit × FtpSource) SourceError α) (s : FtpSource)
    (w : World) : (beside x (s, w)).2 = ((x ((), s)).2.2, w) := rfl

/-- Once the pending reply is read, a call for a name does what its dialogue does. -/
theorem beside_of_drained {α β : Type} {x : String → Session α} {f : FtpFault → SourceError}
    {g : String → α → β} (held : s.session = .held c others) {reply : Option FtpReply}
    {c₁ : Connection} (drained : drain c = (.ok reply, c₁)) {path : String}
    (decoded : percentDecode name = .ok path) :
    beside (onIdle name do
      let path ← Attempt.ofExcept (percentDecode name)
      let a ← dialogue (x path) f
      return g path a) (s, w) =
      (((x path c₁).1.map (g path)).mapError f,
        { s with session := .held (x path c₁).2 others }, w) := by
  simp only [beside, Attempt.on_apply, onIdle, held, drained, decoded, Attempt.bind_apply,
    Attempt.ofExcept_apply, dialogue, Attempt.mapError_apply]
  cases x path c₁ with
  | mk result c' => cases result <;> rfl

/-- Once the pending reply is read, a name is opened by its download. -/
theorem openFile_of_drained (held : s.session = .held c others) {reply : Option FtpReply}
    {c₁ : Connection} (drained : drain c = (.ok reply, c₁)) {path : String}
    (decoded : percentDecode name = .ok path) :
    openFile name (s, w) =
      (((download path c₁).1.map Stream.feed).mapError (FtpFault.errorFor name),
        { s with session := .held (download path c₁).2 others }, w) :=
  beside_of_drained held drained decoded

theorem beside_held {α : Type} {x : Attempt (Unit × Connection) SourceError α}
    (held : s.session = .held c others) (step : c.InStep answers) {after : Connection → Prop}
    (hx : Meets (fun p => Rests c.server answers c.heard p.2) x
      (fun _ p => after p.2) fun p => after p.2) :
    ∃ c', (beside (onIdle name x) (s, w)).2 = ({ s with session := .held c' others }, w) ∧
      after c' := by
  have pre : ∀ p : Unit × Connection, p.1 = () ∧ Rests c.server answers c.heard p.2 →
      Rests c.server answers c.heard p.2 := fun _ h => h.2
  obtain ⟨c', hc', hafter⟩ := onIdle_held name held step
    (hx.weaken pre (fun _ _ h => h) fun _ h => h)
  exact ⟨c', by rw [beside_snd, hc'], hafter⟩

variable (hs : c.server.Conforms answers) (held : s.session = .held c others)
  (step : c.InStep answers) (hn : NameIsOneLine name)

include hs held step hn

theorem openFile_held :
    ∃ c', (openFile name (s, w)).2 = ({ s with session := .held c' others }, w) ∧
      c'.server = c.server ∧ c'.InStep answers := by
  apply beside_held held step
  have rests : ∀ p : Unit × Connection, Rests c.server answers c.heard p.2 →
      p.2.server = c.server ∧ p.2.InStep answers := fun _ h => ⟨h.server_eq, h.inStep⟩
  refine Meets.ofExcept_bind (fun path hp => ?_) rests
  have run := dialogue_meets (download_meets c.heard hs (hn path hp))
    (FtpFault.errorFor name)
  exact (run.or_fails rests).bind_pure _

theorem listed_held :
    ∃ c', (listed name (s, w)).2 = ({ s with session := .held c' others }, w) ∧
      Settled answers c.heard ListingFails c.server c' := by
  apply beside_held held step
  refine Meets.ofExcept_bind (fun path hp => ?_) fun _ h => h.settled
  have run := dialogue_meets
    (listing_meets c.heard hs (isOneLine_place (hn path hp))) FtpFault.error
  exact (run.weaken (fun _ h => h) (fun _ _ h => h.settled)
    fun _ h => h.elim (·.settled) .unfinished).bind_pure _

theorem upload_held (feed : Feed) :
    ∃ c', (upload name (feed, s)).2.2 = { s with session := .held c' others } ∧
      Settled answers c.heard (UploadFails feed) c.server c' := by
  apply onIdle_held name held step
  refine Meets.ofExcept_bind (fun path hp => ?_) fun _ h => h.2.settled
  have run := (upload_meets c.heard hs (hn path hp) feed).mapError (f := FtpFault.error)
  exact (run.weaken (fun _ h => h) (fun _ _ h => h.settled)
    fun _ h => h.elim (·.settled) .unfinished).discard

end Operations

/-! ## Beginning and end of a session -/

/-- What a start of a site comes to.  Only the first of a session dials and says anything; a
connection on which the session cannot begin is ended. -/
inductive Starts (s : FtpSource) (w : World) : Except SourceError Unit × FtpSource × World → Prop
  | again (c : Connection) (others more : Nat) (held : s.session = .held c others)
      (counted : more + 1 = min (others + 2) Counted.largestCount) :
    Starts s w (.ok (), { s with session := .held c more }, w)
  | refused (dialled : List (String × Nat)) (cause : IoFault) (idle : s.session = .idle)
      (host : String) (port : Nat) (asked : dialled = w.dialled ++ [(host, port)]) :
    Starts s w (.error (FtpFault.io cause).error, { s with session := .idle }, { w with dialled })
  | opened (dialled : List (String × Nat)) (past : List Transcript) (host : String) (port : Nat)
      (server : FtpServer) (c : Connection) (idle : s.session = .idle)
      (found : w.network.server past host port = .ok server)
      (spoke : opening s.address (.fresh server host) = (.ok (), c))
      (asked : dialled = w.dialled ++ [(host, port)]) :
    Starts s w (.ok (), { s with session := .held c 0 }, { w with dialled })
  | failed (dialled : List (String × Nat)) (past : List Transcript) (host : String) (port : Nat)
      (server : FtpServer) (c : Connection) (e : SourceError) (idle : s.session = .idle)
      (found : w.network.server past host port = .ok server)
      (spoke : opening s.address (.fresh server host) = (.error e, c))
      (asked : dialled = w.dialled ++ [(host, port)]) :
    Starts s w (.error e, { s with session := .idle }, World.hangUp c { w with dialled })

theorem starts (s : FtpSource) (w : World) : Starts s w (start (s, w)) := by
  rw [start]
  cases hsession : s.session with
  | held c others =>
    refine .again c others _ hsession (Nat.sub_add_cancel ?_)
    exact Nat.le_min.mpr ⟨by omega, by decide⟩
  | idle =>
    simp only [Counted.acquire, connect, World.dial]
    cases hserver : w.network.server (w.ended.map (·.transcript)) (s.address.hostname.getD "")
        (s.address.port.getD defaultPort) with
    | error cause => exact .refused _ cause hsession _ _ rfl
    | ok server =>
      dsimp only
      cases ho : opening s.address (.fresh server (s.address.hostname.getD "")) with
      | mk result c =>
        cases result with
        | ok _ => exact .opened _ _ _ _ server c hsession hserver ho rfl
        | error e => exact .failed _ _ _ _ server c e hsession hserver ho rfl

/-- What a finish of a site comes to.  Only the last of a session says anything. -/
inductive Finishes (s : FtpSource) (w : World) : Except SourceError Unit × FtpSource × World → Prop
  | unheld (idle : s.session = .idle) :
    Finishes s w (.ok (), { s with session := .idle }, w)
  | last (c : Connection) (held : s.session = .held c 0) :
    Finishes s w (.ok (), { s with session := .idle }, w.hangUp (closing c).2)
  | others (c : Connection) (left : Nat) (held : s.session = .held c (left + 1)) :
    Finishes s w (.ok (), { s with session := .held c left }, w)

theorem finishes (s : FtpSource) (w : World) : Finishes s w (finish (s, w)) := by
  rw [finish]
  cases hsession : s.session with
  | idle => exact .unheld hsession
  | held c others =>
    cases others with
    | zero => exact .last c hsession
    | succ left => exact .others c left hsession

section Sessions

variable {answers : Transcript → List WireReply} {server : FtpServer}
  (hs : server.Conforms answers)

include hs

theorem opening_meets {a : Address} (ha : a.IsOneLine) (peer : String) :
    Meets (fun c => c = Connection.fresh server peer) (opening a)
      (fun _ c => ∃ past, Rests server answers past c)
      (fun c => ∃ past, Rests server answers past c) := by
  refine (greet_meets hs peer).mapError.bind fun _ => Meets.exists_of_forall fun past => ?_
  refine .ofExcept_bind (fun username hu => ?_) fun _ h => h
  refine .ofExcept_bind (fun password hp => ?_) fun _ h => h
  have user : ∀ name ∈ username, IsOneLine name := by
    rintro name rfl
    exact ha.username name hu
  have pass : ∀ text ∈ password, IsOneLine text := by
    rintro text rfl
    exact ha.password text hp
  apply (login_meets hs user pass).mapError.bind
  intro _
  refine .ofExcept_bind (fun directory hd => ?_) fun _ h => h
  split
  · exact (changeDirectory_meets hs (ha.directory directory hd)).mapError
  · exact .pure fun _ h => h

/-- The goodbye leaves a connection in step. -/
theorem closing_inStep {c : Connection} (hc : c.server = server) (step : c.InStep answers) :
    (closing c).2.server = server ∧ (closing c).2.InStep answers := by
  have run : Meets (fun c' => c'.server = server ∧ c'.InStep answers ∧ c'.heard = c.heard) closing
      (fun _ => Rests server answers c.heard) (Rests server answers c.heard) :=
    (drain_meets.or_fails fun _ h => h.elim).discard.bind fun _ => quit_meets hs
  have rests := run.snd ⟨hc, step, rfl⟩
  exact ⟨rests.server_eq, rests.inStep⟩

end Sessions

/-! ## Runs -/

variable {answers : FtpServer → Transcript → List WireReply}

/-- A connection in step with a conforming server whose data connections work. -/
structure Live (answers : FtpServer → Transcript → List WireReply) (c : Connection) : Prop where
  conforms : c.server.Conforms (answers c.server)
  carriesData : c.server.CarriesData
  inStep : c.InStep (answers c.server)

/-- What sessions do to the world: those that have ended since were in step to their end. -/
structure Keeps (answers : FtpServer → Transcript → List WireReply) (w w' : World) : Prop where
  network_eq : w'.network = w.network
  files_eq : w'.files = w.files
  ended : ∀ c ∈ w'.ended, c ∈ w.ended ∨ c.InStep (answers c.server)

/-- What every call preserves. -/
structure InStep (answers : FtpServer → Transcript → List WireReply) (first s : FtpSource × World) :
    Prop where
  address_eq : s.1.address = first.1.address
  keeps : Keeps answers first.2 s.2
  live : ∀ c others, s.1.session = .held c others → Live answers c

theorem Keeps.refl (w : World) : Keeps answers w w := ⟨rfl, rfl, fun _ hc => Or.inl hc⟩

theorem Keeps.hangUp {w w' : World} (h : Keeps answers w w') {c : Connection}
    (hc : c.InStep (answers c.server)) : Keeps answers w (w'.hangUp c) := by
  refine ⟨h.network_eq, h.files_eq, fun c' hc' => ?_⟩
  rcases List.mem_append.mp hc' with hc' | hc'
  · exact h.ended c' hc'
  · obtain rfl : c' = c := by simpa using hc'
    exact Or.inr hc

section Calls

variable {first s : FtpSource × World} (h : InStep answers first s)

include h

theorem start_inStep (hw : first.2.network.Conforms answers) (ha : first.1.address.IsOneLine) :
    InStep answers first (start s).2 := by
  obtain ⟨s, w⟩ := s
  obtain ⟨address, kept, live⟩ := h
  rw [← kept.network_eq] at hw
  rw [← address] at ha
  -- What has been dialled is not among what is kept.
  have redialled (dialled : List (String × Nat)) : Keeps answers first.2 { w with dialled } :=
    ⟨kept.network_eq, kept.files_eq, kept.ended⟩
  have started := starts s w
  generalize start (s, w) = outcome at started
  cases started with
  | again c others more held => exact ⟨address, kept, Counted.forall_held (live c others held) more⟩
  | refused dialled => exact ⟨address, redialled dialled, Counted.forall_idle⟩
  | opened dialled past host port server c idle found spoke =>
    obtain ⟨conforms, carriesData⟩ := hw _ _ _ _ found
    have opened := opening_meets conforms ha host (.fresh server host) rfl
    rw [spoke] at opened
    obtain ⟨past, rests⟩ := opened
    obtain rfl := rests.server_eq
    exact ⟨address, redialled dialled, Counted.forall_held ⟨conforms, carriesData, rests.inStep⟩ 0⟩
  | failed dialled past host port server c e idle found spoke =>
    obtain ⟨conforms, carriesData⟩ := hw _ _ _ _ found
    have opened := opening_meets conforms ha host (.fresh server host) rfl
    rw [spoke] at opened
    obtain ⟨past, rests⟩ := opened
    obtain rfl := rests.server_eq
    exact ⟨address, (redialled dialled).hangUp rests.inStep, Counted.forall_idle⟩

theorem finish_inStep : InStep answers first (finish s).2 := by
  obtain ⟨s, w⟩ := s
  obtain ⟨address, kept, live⟩ := h
  have finished := finishes s w
  generalize finish (s, w) = outcome at finished
  cases finished with
  | unheld => exact ⟨address, kept, Counted.forall_idle⟩
  | last c held =>
    have alive := live c 0 held
    obtain ⟨server, step⟩ := closing_inStep alive.conforms rfl alive.inStep
    rw [← server] at step
    exact ⟨address, kept.hangUp step, Counted.forall_idle⟩
  | others c left held => exact ⟨address, kept, Counted.forall_held (live c _ held) left⟩

end Calls

/-! ## Calls -/

theorem has_snd (name : String) (p : FtpSource × World) :
    (Source.has name p).2 = (listed name p).2 := by
  simp only [Source.has]
  split
  · rename_i h
    exact (congrArg Prod.snd h).symm
  · rename_i h
    exact (congrArg Prod.snd h).symm

theorem store_fst (name : String) (stream : Stream) (s : FtpSource) (w : World) :
    (Source.store name (stream, s, w)).1 =
      if s.readOnly then .error (.precondition (.readOnly name))
      else (upload name (stream.contents w.files, s)).1 := by
  change (Source.whenWritable s.readOnly name _ (stream, s, w)).1 = _
  rw [Source.whenWritable_apply]
  split <;> rfl

theorem store_snd (name : String) (stream : Stream) (s : FtpSource) (w : World) :
    (Source.store name (stream, s, w)).2.2 =
      (if s.readOnly then s else (upload name (stream.contents w.files, s)).2.2, w) := by
  cases hr : s.readOnly with
  | true =>
    change (Source.whenWritable s.readOnly name _ (stream, s, w)).2.2 = _
    rw [hr]
    rfl
  | false =>
    change (Source.whenWritable s.readOnly name _ (stream, s, w)).2.2 = _
    rw [hr]
    rfl

/-- The name that a call is about fits on one line. -/
def CallIsOneLine : Call → Prop
  | .openFile name | .has name | .store name _ => NameIsOneLine name
  | .start | .finish => True

/-- The data of the transfer that a call has begun last cannot be read or sent to its end. -/
def TransferFails (files : FileTree) : Call → Connection → Prop
  | .has _ => ListingFails
  | .store _ stream => UploadFails (stream.contents files)
  | _ => fun _ => False

/-- Whether a call is one on names. -/
def IsOperation (call : Call) : Prop := call ≠ .start ∧ call ≠ .finish

/-- Without a session, an operation does nothing. -/
theorem perform_idle {call : Call} (hcall : IsOperation call) {s : FtpSource} (w : World)
    (idle : s.session = .idle) : (call.perform (s, w)).2 = (s, w) := by
  cases call with
  | start => exact absurd rfl hcall.1
  | finish => exact absurd rfl hcall.2
  | openFile name =>
    change (openFile name (s, w)).2 = (s, w)
    rw [openFile, beside_snd, onIdle, idle]
  | has name =>
    change (Source.has name (s, w)).2 = (s, w)
    rw [has_snd, listed, beside_snd, onIdle, idle]
  | store name stream =>
    change (Source.store name (stream, s, w)).2.2 = (s, w)
    rw [store_snd, upload, onIdle, idle]
    simp

/-- An operation comes to what its transfer comes to on the drained connection. -/
theorem perform_of_transfers {call : Call} (hcall : IsOperation call) {s : FtpSource} {w : World}
    {c : Connection} {others : Nat} {ready after : Connection → Prop}
    (held : s.session = .held c others) (unused : after c) (at_once : ∀ c', ready c' → after c')
    (drained : Meets (fun c' => c' = c) drain (fun _ => ready) after)
    (downloads : ∀ path, Meets ready (download path) (fun _ => after) after)
    (listings : ∀ directory, Meets ready (listing directory) (fun _ => after) after)
    (uploads : ∀ path feed, Meets (fun p => p.1 = feed ∧ ready p.2) (Connection.upload path)
      (fun _ p => after p.2) fun p => after p.2) :
    ∃ c', (call.perform (s, w)).2 = ({ s with session := .held c' others }, w) ∧ after c' := by
  cases call with
  | start => exact absurd rfl hcall.1
  | finish => exact absurd rfl hcall.2
  | openFile name =>
    have opens (path : String) :=
      (dialogue_meets (downloads path) (FtpFault.errorFor name)).bind_pure Stream.feed
    obtain ⟨c', hc', hafter⟩ := onIdle_of_drain (a := ()) name held drained
      ((Meets.ofExcept_bind (fun path _ => opens path) fun p => at_once p.2).weaken
        (fun _ h => h.2) (fun _ _ h => h) fun _ h => h)
    refine ⟨c', ?_, hafter⟩
    change (openFile name (s, w)).2 = _
    rw [openFile, beside_snd, hc']
  | has name =>
    have looks (path : String) :=
      (dialogue_meets (listings (place path).1) FtpFault.error).bind_pure
        fun names => lists names path (place path).2
    obtain ⟨c', hc', hafter⟩ := onIdle_of_drain (a := ()) name held drained
      ((Meets.ofExcept_bind (fun path _ => looks path) fun p => at_once p.2).weaken
        (fun _ h => h.2) (fun _ _ h => h) fun _ h => h)
    refine ⟨c', ?_, hafter⟩
    change (Source.has name (s, w)).2 = _
    rw [has_snd, listed, beside_snd, hc']
  | store name stream =>
    change ∃ c', (Source.store name (stream, s, w)).2.2 = _ ∧ _
    rw [store_snd]
    by_cases readOnly : s.readOnly = true
    · exact ⟨c, by rw [if_pos readOnly, ← held], unused⟩
    · obtain ⟨c', hc', hafter⟩ := onIdle_of_drain name held drained
        (.ofExcept_bind (fun path _ => (uploads path (stream.contents w.files)).mapError.discard)
          fun _ h => at_once _ h.2)
      exact ⟨c', by rw [if_neg readOnly, upload, hc'], hafter⟩

/-- An operation on a session in step leaves it in step, unless a transfer fails on the way. -/
theorem perform_held {call : Call} (hcall : IsOperation call) (oneLine : CallIsOneLine call)
    {answers : Transcript → List WireReply} {s : FtpSource} {w : World} {c : Connection}
    {others : Nat} (conforms : c.server.Conforms answers) (held : s.session = .held c others)
    (step : c.InStep answers) :
    ∃ c', (call.perform (s, w)).2 = ({ s with session := .held c' others }, w) ∧
      Settled answers c.heard (TransferFails w.files call) c.server c' := by
  cases call with
  | start => exact absurd rfl hcall.1
  | finish => exact absurd rfl hcall.2
  | openFile name =>
    obtain ⟨c', hc', server, step'⟩ := openFile_held (w := w) conforms held step oneLine
    exact ⟨c', hc', .inStep server step' fun h => h.2⟩
  | has name =>
    obtain ⟨c', hc', settled⟩ := listed_held (w := w) conforms held step oneLine
    refine ⟨c', ?_, settled⟩
    change (Source.has name (s, w)).2 = _
    rw [has_snd, hc']
  | store name stream =>
    change ∃ c', (Source.store name (stream, s, w)).2.2 = _ ∧ _
    rw [store_snd]
    by_cases readOnly : s.readOnly = true
    · refine ⟨c, by rw [if_pos readOnly, ← held], .inStep rfl step fun h => ?_⟩
      exact (Plain.refl c).not_accepted h.1
    · obtain ⟨c', hc', settled⟩ :=
        upload_held conforms held step oneLine (stream.contents w.files)
      exact ⟨c', by rw [if_neg readOnly, hc'], settled⟩

/-- What a call uploads ends without a fault. -/
def CallIsSound (files : FileTree) : Call → Prop
  | .store _ stream => (stream.contents files).IsSound
  | _ => True

/-- Every call leaves a session in step whose data connections work. -/
theorem perform_inStep {first s : FtpSource × World} (h : InStep answers first s)
    (hw : first.2.network.Conforms answers) (ha : first.1.address.IsOneLine) {call : Call}
    (oneLine : CallIsOneLine call) (sound : CallIsSound first.2.files call) :
    InStep answers first (call.perform s).2 := by
  by_cases hcall : IsOperation call
  · obtain ⟨s, w⟩ := s
    cases hsession : s.session with
    | idle =>
      rw [perform_idle hcall w hsession]
      exact h
    | held c others =>
      have alive := h.live c others hsession
      obtain ⟨c', hc', settled⟩ :=
        perform_held (w := w) hcall oneLine alive.conforms hsession alive.inStep
      have server := settled.server_eq
      -- The data connections work, so no transfer fails on the way.
      have not_failed : ¬ TransferFails w.files call c' := by
        rw [h.keeps.files_eq]
        cases call with
        | has name => exact alive.carriesData.not_listingFails server
        | store name stream => exact alive.carriesData.not_uploadFails server sound
        | _ => exact id
      have step := settled.inStep_iff.mpr fun hf => not_failed hf.2
      rw [hc']
      refine ⟨h.address_eq, h.keeps, fun c'' others' hheld => ?_⟩
      obtain ⟨rfl, -⟩ : c' = c'' ∧ _ := by simpa using hheld
      refine ⟨?_, ?_, ?_⟩
      · rw [server]
        exact alive.conforms
      · rw [server]
        exact alive.carriesData
      · rw [server]
        exact step
  · cases call with
    | start => exact start_inStep h hw ha
    | finish => exact finish_inStep h
    | _ => exact absurd ⟨nofun, nofun⟩ hcall

/-- **A session stays in step.**  Whatever is called in whatever order, every reply that was heard,
in a session that has ended or in the one that lives, is the reply that the server sent to the
command to which it was heard; and on the connection that lives just the reply that is known to be
pending is sent and unread. -/
theorem run_heard_eq_ledger {s : FtpSource} {w : World} (idle : s.session = .idle)
    (ha : s.address.IsOneLine) (hw : w.network.Conforms answers) (calls : List Call)
    (oneLine : ∀ call ∈ calls, CallIsOneLine call)
    (sound : ∀ call ∈ calls, CallIsSound w.files call) :
    (∀ c ∈ (Call.run calls (s, w)).2.ended, c ∈ w.ended ∨
      c.heard <+: c.transcript.ledger (answers c.server)) ∧
    ∀ c others, (Call.run calls (s, w)).1.session = .held c others →
      ∃ owed, c.Owes (answers c.server) owed ∧
        owed.length = if (Call.run calls (s, w)).1.replyPending then 1 else 0 := by
  have start : InStep answers (s, w) (s, w) :=
    ⟨rfl, .refl w, fun c others held => by simp [idle] at held⟩
  have final : InStep answers (s, w) (Call.run calls (s, w)) :=
    Call.run_induction (InStep answers (s, w)) (fun call hcall _ h =>
      perform_inStep h hw ha (oneLine call hcall) (sound call hcall)) start
  constructor
  · intro c hc
    refine (final.keeps.ended c hc).imp_right fun step => ?_
    obtain ⟨owed, owes, -⟩ := step
    exact owes.heard_prefix
  · intro c others held
    obtain ⟨owed, owes, -, length⟩ := (final.live c others held).inStep
    refine ⟨owed, owes, ?_⟩
    rw [length, replyPending, held]
    simp

/-- After a download was begun at the mirror, just its last reply is to be read. -/
theorem run_mirror_owes_one :
    let s := (Call.run [.start, .openFile "a"] (mirror, .obliging [])).1
    s.replyPending = true ∧ ∃ c others, s.session = .held c others ∧
      ∃ owed, c.Owes FtpServer.consents owed ∧ owed.length = 1 := by
  intro s
  have pending : s.replyPending = true := by decide +kernel
  have oneLine : mirror.address.IsOneLine :=
    ⟨nofun, nofun, oneLine_of_toOption "pub/" (by decide +kernel) (by decide)⟩
  have conforms : (World.obliging []).network.Conforms fun _ => FtpServer.consents := by
    rintro past host port server h
    obtain rfl : .obliging [] = server := by simpa [World.obliging, Network.obliging] using h
    exact ⟨FtpServer.obliging_conforms [], FtpServer.obliging_carriesData rfl "" rfl⟩
  have name : NameIsOneLine "a" := oneLine_of_toOption "a" (by decide +kernel) (by decide)
  have names : ∀ call ∈ [Call.start, Call.openFile "a"], CallIsOneLine call := by
    simpa [CallIsOneLine] using name
  have live := (run_heard_eq_ledger (s := mirror) (w := .obliging [])
    rfl oneLine conforms [.start, .openFile "a"] names (by simp [CallIsSound])).2
  cases held : s.session with
  | idle => simp [replyPending, held] at pending
  | held c others =>
    obtain ⟨owed, owes, length⟩ := live c others held
    exact ⟨pending, c, others, rfl, owed, owes, by rw [length]; exact if_pos pending⟩

/-- **Only a transfer that fails on the way takes a session out of step.**  A call for a name leaves
the session in step unless the server has accepted its transfer and the data then cannot be read or
sent to its end.  In that case the session takes itself to be idle while the last reply to the
transfer is owed, and whatever is sent next is answered by that reply. -/
theorem perform_inStep_iff {answers : Transcript → List WireReply} {s : FtpSource} {w : World}
    {c : Connection} {others : Nat} (held : s.session = .held c others)
    (conforms : c.server.Conforms answers) (step : c.InStep answers) (call : Call)
    (hcall : IsOperation call) (oneLine : CallIsOneLine call) :
    ∃ c', (call.perform (s, w)).2.1.session = .held c' others ∧ c'.server = c.server ∧
      (c'.InStep answers ↔ ¬ (c'.Accepted c.heard ∧ TransferFails w.files call c')) ∧
      (c'.Accepted c.heard → TransferFails w.files call c' →
        c'.state = .idle ∧ ∃ last, c'.Owes answers [last] ∧ last.IsFinal ∧
          ∀ line, c'.server.blocked c'.transcript = none →
            (Connection.command line c').1 = .ok last.reply) := by
  obtain ⟨c', hc', settled⟩ := perform_held (w := w) hcall oneLine conforms held step
  refine ⟨c', by rw [hc'], settled.server_eq, settled.inStep_iff, fun accepted failed => ?_⟩
  have unfinished := settled.unfinished_of accepted failed
  obtain ⟨last, owes, final⟩ := unfinished.owes
  exact ⟨unfinished.idle, last, owes, final, fun line clear =>
    command_of_owes owes unfinished.idle clear line⟩

/-- After a listing of the mirror that is text, the session is in step. -/
theorem has_mirror_inStep :
    ∃ c, ((Call.has "a").perform (startedMirror [.chunk [0x61]], .obliging [])).2.1.session =
        .held c 0 ∧ c.InStep FtpServer.consents := by
  have name : NameIsOneLine "a" := oneLine_of_toOption "a" (by decide +kernel) (by decide)
  have carries : (FtpServer.obliging [.chunk [0x61]]).CarriesData :=
    FtpServer.obliging_carriesData rfl "a" rfl
  obtain ⟨c, held, server, iff, -⟩ := perform_inStep_iff (s := startedMirror [.chunk [0x61]])
    (w := .obliging []) rfl (FtpServer.obliging_conforms _) (Connection.greeted_inStep _)
    (.has "a") ⟨nofun, nofun⟩ name
  exact ⟨c, held, iff.mpr fun h => carries.not_listingFails server h.2⟩

/-- A session that takes itself to be idle while the next command will be answered by `last`. -/
def AnswersLate (s : FtpSource) (last : WireReply) : Prop :=
  s.replyPending = false ∧ ∃ c others, s.session = .held c others ∧
    ¬ c.InStep FtpServer.consents ∧ (Connection.command "TYPE I" c).1 = .ok last.reply

theorem answersLate_of_resource {s : FtpSource} {last : WireReply}
    (h : (s.session.resource?.map fun c =>
        (c.state, c.unread, (Connection.command "TYPE I" c).1.toOption)) =
      some (.idle, last.bytes, some last.reply)) : s.AnswersLate last := by
  cases held : s.session with
  | idle => simp [held, Counted.resource?] at h
  | held c others =>
    simp only [held, Counted.resource?, Option.map_some, Option.some.injEq, Prod.mk.injEq] at h
    obtain ⟨idle, unread, answer⟩ := h
    refine ⟨by simp [replyPending, held, idle], c, others, held, fun step => ?_, ?_⟩
    · rw [step.unread_eq_nil idle] at unread
      exact WireReply.bytes_ne_nil _ unread.symm
    · cases result : (Connection.command "TYPE I" c).1 with
      | ok reply => simpa [result, Except.toOption] using answer
      | error fault => simp [result, Except.toOption] at answer

/-- In step with a conforming server, a listing that is no text and an upload whose source fails
leave their last reply to be taken for the answer to the next command. -/
theorem transfers_lapse_at_mirror :
    (∀ data, (Connection.greeted data).server.Conforms FtpServer.consents ∧
      (Connection.greeted data).InStep FtpServer.consents) ∧
    ((Call.has "a").perform (startedMirror [.chunk [0xFF]], .obliging [])).2.1.AnswersLate
      (FtpServer.saying 226 "Transfer complete") ∧
    ((Call.store "a" (.feed [.fault ⟨.other, "read failed"⟩])).perform
      (startedMirror [], .obliging [])).2.1.AnswersLate
        (FtpServer.saying 226 "Transfer complete") :=
  ⟨fun data => ⟨FtpServer.obliging_conforms data, Connection.greeted_inStep data⟩,
    answersLate_of_resource (by decide +kernel), answersLate_of_resource (by decide +kernel)⟩

end FtpSource

end InstallMedia
