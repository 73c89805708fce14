import InstallMedia.Proofs.Ftp.Discipline
import InstallMedia.Proofs.Ftp.Telling

/-!
# The life of a session

The first start of a site opens one control connection, which all starts after it share, until the
last finish ends it.  A first start that fails leaves nothing behind, and a finish never fails.
Whatever the servers answer, and whatever is called in whatever order.

## Main definitions

* `Connection.SaysGoodbye`: how a connection ends
* `FtpSource.Lifecycle`: what starts, finishes, operations and runs do to a session

## Main results

* `FtpSource.perform_continues`: an operation stays on the connection of its session
* `FtpSource.lifecycle`: the life of a session
-/

namespace InstallMedia

open Attempt (Meets)
open Connection

/-- A connection that ends as `c'`: nothing more is told, or the goodbye alone, once a pending
reply, if there was one, has been read. -/
def Connection.SaysGoodbye (c c' : Connection) : Prop :=
  Told c [] c' ∨
    Told c [asked "QUIT"] c' ∧ ∃ answer c₁, drain c = (.ok answer, c₁) ∧ c₁.state = .idle

/-- A stream of which nothing was read is as it was. -/
theorem Stream.advance_contents (files : FileTree) (stream : Stream) :
    stream.advance files (stream.contents files) = stream := by
  rcases stream with ⟨_ | _⟩ | _ <;> simp [advance, contents]

namespace FtpSource

variable {s : FtpSource} {w : World} {c : Connection} {others : Nat} {name : String}

/-! ## Dialogues of a site -/

theorem opening_continues (a : Address) (first : Connection) :
    Meets (Told first []) (opening a) (fun _ => Continues first) (Continues first) := by
  have greeted : Meets (Told first []) greet (fun _ => Continues first) (Continues first) :=
    greet_told.weaken (fun _ h => h) (fun _ _ => Told.continues) fun _ => Told.continues
  refine greeted.mapError.bind fun _ => ?_
  refine .ofExcept_bind (fun username _ => ?_) fun _ h => h
  refine .ofExcept_bind (fun password _ => ?_) fun _ h => h
  refine (login_continues username password).mapError.bind fun _ => ?_
  refine .ofExcept_bind (fun directory _ => ?_) fun _ h => h
  split
  · exact (changeDirectory_continues directory).mapError
  · exact .pure fun _ h => h

/-- The goodbye is said once at most, and not before a pending reply has been read. -/
theorem closing_goodbye (c : Connection) : SaysGoodbye c (closing c).2 := by
  have drained := drain_told c (Told.refl c)
  rw [closing, Attempt.bind_apply, Attempt.discard_apply]
  cases hd : drain c with
  | mk result c₁ =>
    rw [hd] at drained
    cases result with
    | error fault => exact Or.inl drained
    | ok answer =>
      have said := quit_told c₁ drained
      have clear : ∃ answer c₁, drain c = (.ok answer, c₁) ∧ c₁.state = .idle :=
        ⟨answer, c₁, hd, state_of_drain hd⟩
      change SaysGoodbye c (quit c₁).2
      split at said
      · rename_i hq
        rw [hq]
        exact Or.inr ⟨said, clear⟩
      · rename_i hq
        rw [hq]
        exact said.imp id fun told => ⟨told, clear⟩

/-! ## Operations -/

/-- An operation stays on the connection of its session. -/
theorem perform_continues {call : Call} (hcall : IsOperation call)
    (held : s.session = .held c others) :
    ∃ c', (call.perform (s, w)).2 = ({ s with session := .held c' others }, w) ∧
      Continues c c' := by
  have drained : Meets (fun c' => c' = c) drain (fun _ => Told c []) (Continues c) :=
    drain_told.weaken (fun c' same => same ▸ Told.refl c') (fun _ _ h => h) fun _ =>
      Told.continues
  refine perform_of_transfers hcall held (.refl c) (fun _ => Told.continues) drained
    (fun path => ?_) listing_continues fun path feed => ?_
  · exact (download_told path).weaken (fun _ h => h)
      (fun _ _ h => h.told.elim fun _ => Told.continues) fun _ h => h
  · exact (upload_told path feed).weaken (fun _ h => h)
      (fun _ _ ⟨_, _, told⟩ => told.continues) fun _ h => h

/-- Without a session every operation is refused, and nothing is touched. -/
theorem operations_idle (idle : s.session = .idle) (w : World) (name : String) :
    openFile name (s, w) = (.error (.precondition (.noSession name s.base)), s, w) ∧
      Source.has name (s, w) = (false, s, w) ∧
      ∀ stream, Source.store name (stream, s, w) =
        (.error (.precondition
          (if s.readOnly then .readOnly name else .noSession name s.base)), stream, s, w) := by
  have refused {σ α : Type} (x : Attempt (σ × Connection) SourceError α) (a : σ) :
      onIdle name x (a, s) = (.error (.precondition (.noSession name s.base)), a, s) := by
    rw [onIdle, idle]
  refine ⟨?_, ?_, fun stream => ?_⟩
  · rw [openFile, beside, Attempt.on_apply, refused]
  · simp only [Source.has, listed, beside, Attempt.on_apply, refused]
  · change Source.whenWritable s.readOnly name _ (stream, s, w) = _
    rw [Source.whenWritable_apply, Attempt.on_apply, upload, refused]
    cases s.readOnly with
    | true => rfl
    | false => simp [Stream.advance_contents]

/-! ## Beginning and end -/

theorem nested_start (held : s.session = .held c others) (w : World) :
    start (s, w) = (.ok (),
      { s with session := .held c (min (others + 2) Counted.largestCount - 1) }, w) := by
  rw [start, held]
  rfl

theorem nested_finish (held : s.session = .held c (others + 1)) (w : World) :
    finish (s, w) = (.ok (), { s with session := .held c others }, w) := by
  rw [finish, held]
  rfl

theorem last_finish (held : s.session = .held c 0) (w : World) :
    finish (s, w) = (.ok (), { s with session := .idle }, w.hangUp (closing c).2) := by
  rw [finish, held]
  rfl

/-- How the first start of a session ends: on a new connection without a pending reply, or with
nothing.  A connection that was opened in vain is ended. -/
inductive Begins (s : FtpSource) (w : World) (host : String) :
    Except SourceError Unit × FtpSource × World → Prop
  | opened (server : FtpServer) (c : Connection) (continues : Continues (.fresh server host) c)
      (idle : c.state = .idle) :
    Begins s w host (.ok (), { s with session := .held c 0 }, w)
  | refused (e : SourceError) : Begins s w host (.error e, s, w)
  | failed (e : SourceError) (server : FtpServer) (c : Connection)
      (continues : Continues (.fresh server host) c) :
    Begins s w host (.error e, s, w.hangUp c)

theorem start_begins (idle : s.session = .idle) (w : World) :
    ∃ host port, Begins s { w with dialled := w.dialled ++ [(host, port)] } host
      (start (s, w)) := by
  have unheld : { s with session := .idle } = s := by rw [← idle]
  have started := starts s w
  generalize start (s, w) = outcome at started
  cases started with
  | again c others more held => simp [idle] at held
  | refused dialled cause _ host port asked =>
    subst asked
    rw [unheld]
    exact ⟨host, port, .refused _⟩
  | opened dialled past host port server c _ found spoke asked =>
    subst asked
    have continues := opening_continues s.address _ _ (Told.refl (.fresh server host))
    have opened := opening_ends s.address server host (.fresh server host) rfl
    rw [spoke] at continues opened
    exact ⟨host, port, .opened server c continues opened.2⟩
  | failed dialled past host port server c e _ found spoke asked =>
    subst asked
    have continues := opening_continues s.address _ _ (Told.refl (.fresh server host))
    rw [spoke] at continues
    rw [unheld]
    exact ⟨host, port, .failed e server c continues⟩

/-- Connections that have ended stay as they were. -/
theorem ended_prefix_perform (call : Call) (s : FtpSource) (w : World) :
    w.ended <+: (call.perform (s, w)).2.2.ended := by
  by_cases hcall : IsOperation call
  · cases held : s.session with
    | idle =>
      rw [perform_idle hcall w held]
    | held c others =>
      obtain ⟨c', hc', -⟩ := perform_continues (w := w) hcall held
      rw [hc']
  · cases call with
    | start =>
      change w.ended <+: (start (s, w)).2.2.ended
      have started := starts s w
      generalize start (s, w) = outcome at started
      cases started with
      | again => exact List.prefix_refl _
      | refused => exact List.prefix_refl _
      | opened => exact List.prefix_refl _
      | failed => exact List.prefix_append _ _
    | finish =>
      change w.ended <+: (finish (s, w)).2.2.ended
      have finished := finishes s w
      generalize finish (s, w) = outcome at finished
      cases finished with
      | unheld => exact List.prefix_refl _
      | last c => exact List.prefix_append _ _
      | others => exact List.prefix_refl _
    | _ => exact absurd ⟨nofun, nofun⟩ hcall

theorem ended_prefix_run (calls : List Call) (s : FtpSource) (w : World) :
    w.ended <+: (Call.run calls (s, w)).2.ended :=
  Call.run_induction (fun p : FtpSource × World => w.ended <+: p.2.ended)
    (fun call _ p h => h.trans (ended_prefix_perform call p.1 p.2)) (List.prefix_refl _)

/-! ## The whole life -/

/-- What becomes of the connection of a session in a run of calls: the session is still there, on
the same connection, and no other one was opened; or there was a last finish, and the connection
has ended for good. -/
inductive Fate (c : Connection) (calls : List Call) (s : FtpSource × World) : Prop
  | kept (c' : Connection) (others : Nat) (continues : Continues c c')
      (held : (Call.run calls s).1.session = .held c' others)
      (dialled : (Call.run calls s).2.dialled = s.2.dialled)
      (ended : (Call.run calls s).2.ended = s.2.ended)
  | finished (before after : List Call) (c' c'' : Connection)
      (split : calls = before ++ .finish :: after)
      (continues : Continues c c') (held : (Call.run before s).1.session = .held c' 0)
      (dialled : (Call.run before s).2.dialled = s.2.dialled) (goodbye : SaysGoodbye c' c'')
      (ended : s.2.ended ++ [c''] <+: (Call.run calls s).2.ended)

/-- What starts, finishes, operations and runs do to the session of a site. -/
structure Lifecycle (s : FtpSource) (w : World) : Prop where
  /-- The first start dials once. -/
  first_start : s.session = .idle → ∃ host port,
    Begins s { w with dialled := w.dialled ++ [(host, port)] } host (start (s, w))
  /-- A nested start is counted, and shares the connection. -/
  nested_start : ∀ c others, s.session = .held c others →
    start (s, w) = (.ok (),
      { s with session := .held c (min (others + 2) Counted.largestCount - 1) }, w)
  unheld_finish : s.session = .idle → finish (s, w) = (.ok (), s, w)
  nested_finish : ∀ c others, s.session = .held c (others + 1) →
    finish (s, w) = (.ok (), { s with session := .held c others }, w)
  /-- The last finish ends the connection, whatever becomes of the goodbye. -/
  last_finish : ∀ c, s.session = .held c 0 → ∃ c', SaysGoodbye c c' ∧
    finish (s, w) = (.ok (), { s with session := .idle }, w.hangUp c')
  unheld_operation : s.session = .idle → ∀ name,
    openFile name (s, w) = (.error (.precondition (.noSession name s.base)), s, w) ∧
      Source.has name (s, w) = (false, s, w) ∧
      ∀ stream, Source.store name (stream, s, w) =
        (.error (.precondition
          (if s.readOnly then .readOnly name else .noSession name s.base)), stream, s, w)
  /-- An operation stays on the connection of the session. -/
  operation : ∀ c others (call : Call), s.session = .held c others → IsOperation call →
    ∃ c', Continues c c' ∧ (call.perform (s, w)).2 = ({ s with session := .held c' others }, w)
  /-- Nothing is written to a connection that has ended. -/
  ended : ∀ calls, w.ended <+: (Call.run calls (s, w)).2.ended
  /-- A session stays on its connection, and no other one is opened, until its last finish. -/
  session : ∀ c others (calls : List Call), s.session = .held c others → Fate c calls (s, w)

/-- A call that stays on the connection can be put before a run. -/
theorem Fate.cons {call : Call} {calls : List Call} {c₁ : Connection} {s s' : FtpSource × World}
    (performed : (call.perform s).2 = s') (continues : Continues c c₁)
    (dialled : s'.2.dialled = s.2.dialled) (ended : s'.2.ended = s.2.ended)
    (h : Fate c₁ calls s') : Fate c (call :: calls) s := by
  subst performed
  cases h with
  | kept c' others continues' held dialled' ended' =>
    exact .kept c' others (continues.trans continues') held (dialled'.trans dialled)
      (ended'.trans ended)
  | finished before after c' c'' split continues' held dialled' goodbye ended' =>
    rw [ended] at ended'
    exact .finished (call :: before) after c' c'' (by rw [split, List.cons_append])
      (continues.trans continues') held (dialled'.trans dialled) goodbye ended'

theorem fate_of_held (calls : List Call) (held : s.session = .held c others) :
    Fate c calls (s, w) := by
  induction calls generalizing s c others with
  | nil => exact .kept c others (.refl c) held rfl rfl
  | cons call calls ih =>
    by_cases hcall : IsOperation call
    · obtain ⟨c', performed, continues⟩ := perform_continues (w := w) hcall held
      exact .cons performed continues rfl rfl (ih rfl)
    · cases call with
      | start =>
        exact .cons (congrArg Prod.snd (nested_start held w)) (.refl c) rfl rfl (ih rfl)
      | finish =>
        cases others with
        | succ others =>
          exact .cons (congrArg Prod.snd (nested_finish held w)) (.refl c) rfl rfl (ih rfl)
        | zero =>
          have finished : (Call.finish.perform (s, w)).2 =
            ({ s with session := .idle }, w.hangUp (closing c).2) :=
              congrArg Prod.snd (last_finish held w)
          refine .finished [] calls c _ rfl (.refl c) held rfl (closing_goodbye c) ?_
          rw [Call.run_cons, finished]
          exact ended_prefix_run calls { s with session := .idle } (w.hangUp (closing c).2)
      | _ => exact absurd ⟨nofun, nofun⟩ hcall

/-- **The life of a session**, whatever the servers answer.  Only a start without a session dials,
and if it fails there is still none.  Starts within the session share its connection, finishes
within it only count, and the last finish ends the connection after at most one goodbye, which is
not said before a pending reply has been read.  Without a session, operations are refused and touch
nothing. -/
theorem lifecycle (s : FtpSource) (w : World) : Lifecycle s w where
  first_start idle := start_begins idle w
  nested_start c others held := nested_start held w
  unheld_finish idle := by
    obtain ⟨base, address, readOnly, session⟩ := s
    obtain rfl : session = .idle := idle
    rfl
  nested_finish c others held := nested_finish held w
  last_finish c held := ⟨_, closing_goodbye c, last_finish held w⟩
  unheld_operation idle := operations_idle idle w
  operation c others call held hcall := by
    obtain ⟨c', hc', continues⟩ := perform_continues hcall held
    exact ⟨c', continues, hc'⟩
  ended calls := ended_prefix_run calls s w
  session c others calls held := fate_of_held calls held

end FtpSource

end InstallMedia
