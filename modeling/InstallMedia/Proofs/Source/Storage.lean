import InstallMedia.Proofs.Files.Transfer
import InstallMedia.Proofs.Ftp.Keeping
import InstallMedia.Proofs.Source.Directory

/-!
# What is stored is read back

Whatever is stored under a name, in a directory or on a session in step with a site that stores, is
what is read when the name is opened next.  It does not matter in which pieces it came, how often
that was interrupted, what was there before, or whether a reply was pending.  On a session out of
step a store may succeed that the site has declined.

## Main definitions

* `Source.ReadsBack`: a name under which what is stored is read back

## Main results

* `Source.Rooted.readsBack`, `FtpSource.Sent.readsBack`: where that is so
* `Source.store_readsBack`: in both cases, and what the server of a site has received
* `Source.store_declined`: a store that succeeds and was declined
-/

namespace InstallMedia

open Connection

/-- All that a stream gives is read. -/
theorem Stream.read_of_delivers {files : FileTree} {stream : Stream} {bytes : Bytes}
    (h : (stream.contents files).Delivers bytes) : (stream.read none files).1 = .ok bytes := by
  have gathered := h.gather
  rcases stream with ⟨_ | _⟩ | _ <;> simp [read, gathered]

namespace Source

/-- A feed that can be stored under a name gives a payload and then ends without a fault.  If the
name is opened next, just the payload is read. -/
def ReadsBack {α : Type} [Source α] (name : String) (feed : Feed) (s : α × World) : Prop :=
  (store name (.feed feed, s)).1 = .ok () → ∃ payload, feed.Delivers payload ∧
    ∀ stream s', openFile name (store name (.feed feed, s)).2.2 = (.ok stream, s') →
      (stream.read none s'.2.files).1 = .ok payload

variable {α : Type} {base name : String} {feed : Feed} {w : World}

/-- What was stored below a directory is what stands there under the name. -/
theorem storeIn_openIn {a : α} (stored : (storeIn base name (.feed feed, a, w)).1 = .ok ()) :
    ∃ payload id, feed.Delivers payload ∧
      openIn base name (storeIn base name (.feed feed, a, w)).2.2 =
        (.ok (.file (.file id 0)), (storeIn base name (.feed feed, a, w)).2.2) ∧
      (storeIn base name (.feed feed, a, w)).2.2.2.files.bytes id = payload := by
  obtain ⟨id, files, n, created, copied, left⟩ := storeIn_ok stored
  have made := FileTree.createFile_made created
  obtain ⟨gains, result⟩ := FileTree.copy_fileSink id feed files
  rw [left]
  refine ⟨(Listing.received feed).1, id, ?_, ?_, ?_⟩
  · change (copy (fileSink id) feed files).result = .ok n at copied
    rw [copied] at result
    cases ending : (Listing.received feed).2 with
    | none => exact Prod.ext rfl ending
    | some cause => simp [ending] at result
  · have opens := gains.openFile made.opens
    delta openIn
    dsimp only
    rw [Stream.contents, opens]
  · change (copy (fileSink id) feed files).sink.bytes id = _
    rw [gains.bytes, made.empty, List.nil_append]

section Rooted

variable [Source α] {a : α}

theorem Rooted.openFile_eq (rooted : Rooted a base) (name : String) (w : World) :
    openFile name (a, w) = openIn base name (a, w) := by
  cases rooted with
  | directory => rfl
  | file => rfl
  | mounted s started => rw [MountedSource.openFile_apply, MountedSource.locate, started]

theorem Rooted.store_eq (rooted : Rooted a base) (name : String) (stream : Stream) (w : World) :
    store name (stream, a, w) =
      if readOnly a then (.error (.precondition (.readOnly name)), stream, a, w)
      else storeIn base name (stream, a, w) := by
  cases rooted with
  | directory s => exact whenWritable_apply s.readOnly name _ _
  | file s => exact whenWritable_apply s.readOnly name _ _
  | mounted s started =>
    rw [MountedSource.store_apply, MountedSource.locate, started]
    rfl

/-- After a name was stored below a directory it can be opened, and gives what was stored. -/
theorem Rooted.openFile_store (rooted : Rooted a base)
    (stored : (store name (.feed feed, a, w)).1 = .ok ()) :
    ∃ payload stream, feed.Delivers payload ∧
      openFile name (store name (.feed feed, a, w)).2.2 =
        (.ok stream, (store name (.feed feed, a, w)).2.2) ∧
      (stream.read none (store name (.feed feed, a, w)).2.2.2.files).1 = .ok payload := by
  rw [rooted.store_eq] at stored ⊢
  by_cases only : readOnly a = true
  · rw [if_pos only] at stored
    cases stored
  · rw [if_neg only] at stored ⊢
    obtain ⟨payload, id, delivers, opens, bytes⟩ := storeIn_openIn stored
    obtain ⟨files, -, left⟩ := storeIn_snd base name (.feed feed) a w
    rw [left] at opens bytes ⊢
    refine ⟨payload, _, delivers, (rooted.openFile_eq name _).trans opens, ?_⟩
    apply Stream.read_of_delivers
    rw [← bytes]
    exact Feed.received_ofBytes (files.bytes id)

/-- What is stored below a directory is read back, whatever stood there before. -/
theorem Rooted.readsBack (rooted : Rooted a base) (name : String) (feed : Feed) (w : World) :
    ReadsBack name feed (a, w) := by
  intro stored
  obtain ⟨payload, stream, delivers, opens, reads⟩ := rooted.openFile_store stored
  refine ⟨payload, delivers, fun stream' s' opened => ?_⟩
  obtain ⟨rfl, rfl⟩ : stream = stream' ∧ _ = s' := by simpa using opens.symm.trans opened
  exact reads

end Rooted

end Source

namespace FtpSource

/-- What was sent is what is read when the name is opened next, if the server has completed the
upload. -/
theorem Sent.readsBack {answers : Transcript → List WireReply}
    {files : Transcript → String → Option Bytes} {c c' : Connection} {name path : String}
    {feed : Feed} {payload : Bytes} {port : Nat} (hs : c.server.Stores answers files)
    (hn : NameIsOneLine name) (sent : Sent name feed path payload port c c')
    (completes : Completes answers c path port c') {s : FtpSource} {others : Nat}
    (held : s.session = .held c' others) {w : World} {stream : Stream}
    (opened : (openFile name (s, w)).1 = .ok stream) (files' : FileTree) :
    (stream.read none files').1 = .ok payload := by
  obtain ⟨path', feed', c'', decoded, rfl, downloading⟩ := openFile_downloading held opened
  obtain rfl : path = path' := Except.ok.inj (sent.decoded.symm.trans decoded)
  have delivers := completes.delivers hs (hn path decoded) sent.told downloading
  exact Stream.read_of_delivers delivers

end FtpSource

namespace Source

/-- **What is stored is read back**, below a directory, and on a session with a server that stores
whenever the server itself has completed the upload.  A store that succeeds on a session has sent
just the payload, up to the end of the data connection.  If the session is in step, with a pending
reply or without one, then the server has completed that.  If it is late, nothing is stored, as long
as the server names no port but in the answer to `PASV`; and if no server of the network does, then
every session that a run of calls leaves is in step or late, whatever has failed on the way. -/
theorem store_readsBack (name : String) (feed : Feed) (w : World) :
    (∀ {α : Type} [Source α] {a : α} {base : String}, Rooted a base →
      ReadsBack name feed (a, w)) ∧
    (∀ (answers : Transcript → List WireReply) (files : Transcript → String → Option Bytes)
      (s : FtpSource) (c : Connection) (others : Nat), s.session = .held c others →
      c.server.Stores answers files → NameIsOneLine name →
      let after := store name (.feed feed, s, w)
      after.1 = .ok () →
        (∃ path payload port c', FtpSource.Sent name feed path payload port c c' ∧
          after.2.2 = ({ s with session := .held c' others }, w) ∧
          (c.InStep answers → Completes answers c path port c') ∧
          (Completes answers c path port c' → ∀ stream s',
            openFile name after.2.2 = (.ok stream, s') →
              (stream.read none s'.2.files).1 = .ok payload)) ∧
        (FtpServer.NamesNoPort answers → ¬ IsLate c.server c)) ∧
    ∀ (answers : FtpServer → Transcript → List WireReply)
      (files : FtpServer → Transcript → String → Option Bytes) (s : FtpSource),
      s.session = .idle → s.address.IsOneLine → w.network.Stores answers files →
      w.network.NamesNoPort answers →
      ∀ calls : List Call, (∀ call ∈ calls, FtpSource.CallIsOneLine call) →
      ∀ c others, (Call.run calls (s, w)).1.session = .held c others →
        FtpSource.Lasting answers files c := by
  refine ⟨fun rooted => rooted.readsBack name feed w, ?_, ?_⟩
  · intro answers files s c others held hs hn after stored
    obtain ⟨path, payload, port, c', sent, left, inStep⟩ :=
      FtpSource.sent_of_store held stored answers
    refine ⟨⟨path, payload, port, c', sent, left, inStep hs.conforms hn,
      fun completes stream s' opened => ?_⟩,
      FtpSource.not_late_of_store held stored hs.conforms⟩
    simp only [after, left] at opened
    exact sent.readsBack hs hn completes rfl (congrArg Prod.fst opened) _
  · intro answers files s idle ha hw ports calls oneLine c others held
    exact (FtpSource.run_attended idle ha hw ports oneLine).live c others held

/-- Three bytes in two pieces, with an interruption between them. -/
def inPieces : Feed := [.chunk [0x61], .fault ⟨.interrupted, "interrupted"⟩, .chunk [0x62, 0x63]]

/-- Nothing, after an interruption. -/
def interrupted : Feed := [.fault ⟨.interrupted, "interrupted"⟩]

/-- Three bytes are stored in a directory and read back.  So is nothing at the mirror, while the
reply to a download is pending. -/
theorem media_and_mirror_readsBack :
    (∃ stream s', openFile "b" (store "b" (.feed inPieces, media, besideMedia)).2.2 =
        (.ok stream, s') ∧ (stream.read none s'.2.files).1 = .ok [0x61, 0x62, 0x63]) ∧
    let s := Call.run [.start, .openFile "b"] (FtpSource.mirror, .keeping)
    s.1.replyPending = true ∧ ∃ stream s',
      openFile "a" (store "a" (.feed interrupted, s)).2.2 = (.ok stream, s') ∧
        (stream.read none s'.2.files).1 = .ok [] := by
  constructor
  · have rooted : Rooted media "/media" := .directory media
    obtain ⟨⟨id, files⟩, created⟩ : ∃ made,
        besideMedia.files.createFile (FilePath.join "/media" "b") = .ok made := ⟨_, rfl⟩
    have stored : (store "b" (.feed inPieces, media, besideMedia)).1 = .ok () := by
      have copied := (FileTree.copy_fileSink id inPieces files).2
      rw [rooted.store_eq, if_neg (by decide), storeIn_of_created _ _ created]
      exact mapError_eq_ok_iff.mpr (map_eq_ok_iff.mpr ⟨_, copied, rfl⟩)
    obtain ⟨-, stream, -, opens, -⟩ := rooted.openFile_store stored
    obtain ⟨payload, delivers, reads⟩ := (store_readsBack "b" inPieces besideMedia).1 rooted stored
    obtain rfl : [0x61, 0x62, 0x63] = payload := congrArg Prod.fst delivers
    exact ⟨stream, _, opens, reads stream _ opens⟩
  · intro s
    have pending : s.1.replyPending = true := by decide +kernel
    obtain ⟨⟨⟩, stored⟩ : ∃ u, (store "a" (.feed interrupted, s)).1 = .ok u :=
      exists_of_isOk (by decide +kernel)
    have opens : (openFile "a" (store "a" (.feed interrupted, s)).2.2).1.isOk = true := by
      decide +kernel
    have address : FtpSource.mirror.address.IsOneLine :=
      ⟨nofun, nofun, oneLine_of_toOption "pub/" (by decide +kernel) (by decide)⟩
    have a : NameIsOneLine "a" := oneLine_of_toOption "a" (by decide +kernel) (by decide)
    have b : NameIsOneLine "b" := oneLine_of_toOption "b" (by decide +kernel) (by decide)
    have names : ∀ call ∈ [Call.start, Call.openFile "b"], FtpSource.CallIsOneLine call := by
      simpa [FtpSource.CallIsOneLine] using b
    have live : ∀ c others, s.1.session = .held c others → FtpSource.Lasting _ _ c :=
      (store_readsBack "a" interrupted .keeping).2.2 (fun _ => FtpServer.consents)
        (fun _ => FtpServer.keptFiles) FtpSource.mirror rfl address World.keeping_stores
        (fun _ _ _ _ _ => FtpServer.consents_namesNoPort) [.start, .openFile "b"] names
    -- From here on it does not matter how the session was reached.
    clear_value s
    cases held : s.1.session with
    | idle => simp [FtpSource.replyPending, held] at pending
    | held c others =>
      obtain ⟨stores, silent, attends⟩ := live c others held
      obtain ⟨⟨path, payload, port, c', sent, -, inStep, reads⟩, notLate⟩ :=
        (store_readsBack "a" interrupted s.2).2.1 _ _ s.1 c others held stores a stored
      obtain rfl : [] = payload := congrArg Prod.fst sent.delivers
      have completes := inStep (attends.resolve_right (notLate silent))
      obtain ⟨stream, opened⟩ := exists_of_isOk opens
      refine ⟨pending, stream, _, Prod.ext opened rfl, ?_⟩
      exact reads completes stream _ (Prod.ext opened rfl)

/-- The calls that take a session out of step: an upload that cannot be read to its end, and five
downloads whose commands are each answered by what was left of the one before. -/
def straying : List Call :=
  .start :: .store "b" (.feed [.fault ⟨.other, "read failed"⟩]) ::
    List.replicate 5 (.openFile "b")

/-- On a network of servers that store but decline a name, a store under that name succeeds once a
session has come so far out of step that the replies to a download are taken for those to the
upload.  The server has kept nothing under the name. -/
theorem store_declined :
    (World.declining "a").network.Stores (fun _ => FtpServer.declines "a")
        (fun _ => FtpServer.declinedFiles "a") ∧
      NameIsOneLine "a" ∧
      let after := store "a" (.feed [], Call.run straying (FtpSource.mirror, .declining "a"))
      after.1 = .ok () ∧ ∃ c t, after.2.2.1.session = .held c 0 ∧
        c.transcript = t ++ [asked "STOR a"] ++ [.uploaded []] ∧
        FtpServer.declines "a" (t ++ [asked "STOR a"]) = [FtpServer.saying 553 "Not allowed"] ∧
        FtpServer.declines "a" c.transcript = [] ∧
        FtpServer.declinedFiles "a" c.transcript "a" = none := by
  refine ⟨World.declining_stores "a", oneLine_of_toOption "a" (by decide +kernel) (by decide), ?_⟩
  intro after
  obtain ⟨⟨⟩, stored⟩ : ∃ u, after.1 = .ok u := exists_of_isOk (by decide +kernel)
  refine ⟨stored, ?_⟩
  -- Of what the server was told, the last two things are about this name.
  have told : after.2.2.1.session.resource?.map (fun c => c.transcript.drop 25) =
      some [asked "STOR a", .uploaded []] := by decide +kernel
  have counted : after.2.2.1.session.count = 1 := by decide +kernel
  clear_value after
  cases held : after.2.2.1.session with
  | idle => simp [held] at counted
  | held c others =>
    obtain rfl : others = 0 := by simpa [held] using counted
    have transcript : c.transcript =
        c.transcript.take 25 ++ [asked "STOR a"] ++ [.uploaded []] := by
      rw [held] at told
      obtain rest := Option.some.inj told
      rw [List.append_assoc, List.singleton_append, ← rest, List.take_append_drop]
    refine ⟨c, _, rfl, transcript, FtpServer.declines_declined "a" _, ?_, if_pos rfl⟩
    rw [transcript]
    exact FtpServer.declines_uploaded "a" _ _

end Source

end InstallMedia
