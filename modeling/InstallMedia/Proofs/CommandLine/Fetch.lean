import InstallMedia.CommandLine.Run
import InstallMedia.Proofs.Files.Transfer
import InstallMedia.Proofs.Ftp.Hearing

/-!
# Fetching from a site

A fetch from an FTP site ends well when the server has accepted the download and its data was read
to an end and put down.  The reply that completes the download is read by the finish, which discards
it: a fetch ends well whatever that reply is, and even if there is none.

## Main definitions

* `Command.CopiedTo`: a feed that was copied to where a fetch puts it
* `Command.Put`: bytes that were put there
* `FtpServer.aborting`: a server whose downloads all end with a refusal

## Main results

* `Arguments.run_fetch_site`: when a fetch from a site ends well, and what it leaves
-/

namespace InstallMedia

variable {σ : Type} {stdout : Sink σ} {held : σ → Bytes} {out : σ} {w : World}

namespace Command

/-! ## Where a fetch puts what it reads -/

/-- A feed that was copied to the standard output, or to a file that was made for it. -/
inductive CopiedTo (stdout : Sink σ) (feed : Feed) :
    Option String → σ × FileTree → σ × FileTree → Prop
  | output {out : σ} {files : FileTree} {n : Nat} (copied : (copy stdout feed out).result = .ok n) :
    CopiedTo stdout feed none (out, files) ((copy stdout feed out).sink, files)
  | file {out : σ} {files made : FileTree} {path : String} {id : FileId} {n : Nat}
      (created : files.createFile path = .ok (id, made))
      (copied : (copy (Source.fileSink id) feed made).result = .ok n) :
    CopiedTo stdout feed (some path) (out, files)
      (out, (copy (Source.fileSink id) feed made).sink)

/-- Just these bytes were added to what the standard output holds, or are in a file. -/
def Put (held : σ → Bytes) (bytes : Bytes) :
    Option String → σ × FileTree → σ × FileTree → Prop
  | none, before, after => held after.1 = held before.1 ++ bytes ∧ after.2 = before.2
  | some path, before, after => after.1 = before.1 ∧ ∃ id,
      after.2.openFile path = .ok (.file id 0) ∧ after.2.bytes id = bytes ∧
        ∀ other, other ≠ id → after.2.bytes other = before.2.bytes other

/-- What was copied was received to its end, and put down whole. -/
theorem CopiedTo.put {feed : Feed} {output : Option String} {before after : σ × FileTree}
    (h : CopiedTo stdout feed output before after) (appends : stdout.Appends held) :
    feed.IsSound ∧ Put held (Listing.received feed).1 output before after := by
  cases h with
  | output copied =>
    obtain ⟨sound, holds⟩ := Copy.appends_of_copy appends copied
    exact ⟨sound, holds, rfl⟩
  | @file out files made path id n created copied =>
    have new := FileTree.createFile_made created
    obtain ⟨gains, result⟩ := FileTree.copy_fileSink id feed made
    rw [result] at copied
    refine ⟨?_, rfl, id, gains.openFile new.opens, ?_, fun other hne => ?_⟩
    · cases ended : (Listing.received feed).2 with
      | none => exact ended
      | some cause =>
        rw [ended] at copied
        cases copied
    · rw [gains.bytes, new.empty, List.nil_append]
    · rw [gains.others other hne, new.others other hne]

variable {α : Type} [Source α] {s s' : α} {w' : World} {name : String} {feed : Feed}
  {output : Option String}

/-- A fetch of what is opened as a feed does what copying the feed does. -/
theorem executeFetch_of_copiedTo (opened : Source.openFile name (s, w) = (.ok (.feed feed), s', w'))
    {put : σ × FileTree} (copied : CopiedTo stdout feed output (out, w'.files) put) :
    executeFetch stdout name output (out, s, w) =
      (.ok true, put.1, s', { w' with files := put.2 }) := by
  cases copied with
  | output copied =>
    simp only [executeFetch, opened, Stream.contents, copied]
    rfl
  | file created copied =>
    simp only [executeFetch, opened, created, Stream.contents, copied]
    rfl

theorem copiedTo_of_executeFetch (opened : Source.openFile name (s, w) = (.ok (.feed feed), s', w'))
    {found : Bool} (h : (executeFetch stdout name output (out, s, w)).1 = .ok found) :
    ∃ put, CopiedTo stdout feed output (out, w'.files) put := by
  cases output with
  | none =>
    simp only [executeFetch, opened] at h
    obtain ⟨n, copied, -⟩ := map_eq_ok_iff.mp h
    exact ⟨_, .output (mapError_eq_ok_iff.mp copied)⟩
  | some path =>
    cases created : w'.files.createFile path with
    | error cause =>
      simp only [executeFetch, opened, created] at h
      cases h
    | ok new =>
      obtain ⟨id, made⟩ := new
      simp only [executeFetch, opened, created] at h
      obtain ⟨n, copied, -⟩ := map_eq_ok_iff.mp h
      exact ⟨_, .file created (mapError_eq_ok_iff.mp copied)⟩

/-- A fetch that ends well has opened the name. -/
theorem openFile_of_executeFetch {found : Bool}
    (h : (executeFetch stdout name output (out, s, w)).1 = .ok found) :
    ∃ stream, (Source.openFile name (s, w)).1 = .ok stream := by
  cases opened : Source.openFile name (s, w) with
  | mk result now =>
    cases result with
    | ok stream => exact ⟨stream, rfl⟩
    | error e =>
      simp only [executeFetch, opened] at h
      cases h

end Command

/-! ## A server that aborts -/

/-- What a server answers that accepts everything, and aborts every download. -/
def FtpServer.aborts (t : Transcript) : List WireReply :=
  match t.getLast? with
  | some (.sent bytes) =>
    if Connection.IsDownload (commandOn bytes) then
      [saying 150 "Opening data connection", saying 426 "Connection closed; transfer aborted"]
    else consents t
  | _ => consents t

/-- The server that aborts every download after the same data. -/
def FtpServer.aborting (data : Feed) : FtpServer :=
  { obliging data with respond := fun t => (aborts t).flatMap WireReply.bytes }

/-- The world in which it answers everywhere. -/
def World.aborting (data : Feed) : World where
  mounter := Rehearsal.mounter {}
  network := { server _ _ _ := .ok (.aborting data), answer _ _ := none }

namespace Arguments

open Command (CopiedTo Put)
open FtpSource (Fetching closing)

variable {a : Arguments} {address name : String} {output : Option String}

section Sites

variable {s : FtpSource} {first c : Connection} {path : String} {feed : Feed} {now : World}
  {put : σ × FileTree} (command : a.command = .fetch address name output)

theorem create_site [InternationalNames] (site : Scheme.ofAddress address = .ok .ftp)
    (options : SourceOptions) :
    AnySource.create address options =
      (FtpSource.ofAddress address options.readOnly).map AnySource.ftp := by
  rw [AnySource.create, site]
  rfl

/-- An operation on a site is that of the kind of source that it is. -/
theorem dispatch_site [InternationalNames] {β : Type}
    {x : ∀ {α : Type}, [Source α] → Operation α β} {s s' : FtpSource}
    {w w' : World} {result : Except SourceError β} (h : x (s, w) = (result, s', w')) :
    AnySource.dispatch x (.ftp s, w) = (result, .ftp s', w') := by
  simp only [AnySource.dispatch, h]

theorem openFile_site [InternationalNames] (fetching : Fetching s w name first path feed c now) :
    Source.openFile name (AnySource.ftp { s with session := .held first 0 }, now) =
      (.ok (.feed feed), .ftp { s with session := .held c 0 }, now) :=
  dispatch_site (x := Source.openFile name) fetching.opened

include command

/-- The finish ends the session, whatever the server says. -/
theorem run_of_fetching [InternationalNames]
    (created : AnySource.create address a.options = .ok (.ftp s))
    (fetching : Fetching s w name first path feed c now)
    (copied : CopiedTo stdout feed output (out, now.files) put) :
    a.run stdout (out, w) =
      (.ok true, put.1, { now with files := put.2, ended := now.ended ++ [(closing c).2] }) := by
  have started : Source.start (AnySource.ftp s, w) =
      (.ok (), AnySource.ftp { s with session := .held first 0 }, now) :=
    dispatch_site (x := Source.start) fetching.started
  have executed := Command.executeFetch_of_copiedTo (openFile_site fetching) copied
  have bracketed := @Command.bracketed_of_started _ _ _ stdout a.command out _ _ _ _ started
  rw [command, Command.execute, executed] at bracketed
  rw [run, command, Command.address, created]
  dsimp only
  rw [bracketed]
  rfl

/-- A run that ends well has copied the data of a download. -/
theorem fetching_of_run [InternationalNames]
    (created : AnySource.create address a.options = .ok (.ftp s))
    (idle : s.session = .idle) (h : (a.run stdout (out, w)).1 = .ok true) :
    ∃ first path feed c now put, Fetching s w name first path feed c now ∧
      CopiedTo stdout feed output (out, now.files) put := by
  rw [run, command, Command.address, created] at h
  dsimp only at h
  cases started : FtpSource.start (s, w) with
  | mk result after =>
    obtain ⟨s', now⟩ := after
    cases result with
    | error e =>
      have failed : Source.start (AnySource.ftp s, w) = (.error e, AnySource.ftp s', now) :=
        dispatch_site (x := Source.start) started
      rw [Command.bracketed_of_not_started failed] at h
      cases h
    | ok _ =>
      have begun : Source.start (AnySource.ftp s, w) = (.ok (), AnySource.ftp s', now) :=
        dispatch_site (x := Source.start) started
      rw [Command.bracketed_of_started begun] at h
      obtain ⟨found, executed, -⟩ := bind_eq_ok_iff.mp h
      obtain ⟨stream, opened⟩ := Command.openFile_of_executeFetch executed
      obtain ⟨first, path, feed, c, rfl, fetching⟩ :=
        FtpSource.fetching_of_openFile idle started opened
      obtain ⟨rfl, -⟩ : s' = { s with session := .held first 0 } ∧ now = now := by
        simpa [started] using fetching.started
      obtain ⟨put, copied⟩ := Command.copiedTo_of_executeFetch (openFile_site fetching) executed
      exact ⟨first, path, feed, c, now, put, fetching, copied⟩

end Sites

/-- **A fetch from a site** ends well exactly if a session begins, the server accepts the download,
and its data is read to an end and put down.  Then just the bytes of the data were put down.  The
reply that completes the download has no say: the finish reads it before its goodbye, if it can be
read, and whatever it is ends the run well. -/
theorem run_fetch_site [InternationalNames] (command : a.command = .fetch address name output)
    (site : Scheme.ofAddress address = .ok .ftp) (appends : stdout.Appends held) (out : σ)
    (w : World) :
    let after := a.run stdout (out, w)
    (after.1 = .ok true ↔ ∃ s first path feed c now put,
      FtpSource.ofAddress address a.options.readOnly = .ok s ∧
        Fetching s w name first path feed c now ∧
        CopiedTo stdout feed output (out, now.files) put) ∧
    ∀ s first path feed c now put, FtpSource.ofAddress address a.options.readOnly = .ok s →
      Fetching s w name first path feed c now →
      CopiedTo stdout feed output (out, now.files) put →
        feed.IsSound ∧ Put held (Listing.received feed).1 output (out, now.files) put ∧
          ∃ c', after = (.ok true, put.1, { now with files := put.2, ended := now.ended ++ [c'] }) ∧
            c.SaysGoodbye c' ∧ ∀ answer rest, c.Offers answer rest →
              c.heard ++ [(Transcript.commands c.transcript, answer)] <+: c'.heard := by
  intro after
  have created := create_site site a.options
  constructor
  · constructor
    · intro ends
      -- An address that makes no source is refused before anything is fetched.
      cases named : FtpSource.ofAddress address a.options.readOnly with
      | error e =>
        rw [named] at created
        have refused : after = (.error (.source e), out, w) := by
          simp only [after, run, command, Command.address, created]
          rfl
        rw [refused] at ends
        cases ends
      | ok s =>
        rw [named] at created
        obtain ⟨first, path, feed, c, now, put, fetching, copied⟩ :=
          fetching_of_run command created (FtpSource.idle_of_ofAddress named) ends
        exact ⟨s, first, path, feed, c, now, put, rfl, fetching, copied⟩
    · rintro ⟨s, first, path, feed, c, now, put, named, fetching, copied⟩
      rw [named] at created
      simp only [after, run_of_fetching command created fetching copied]
  · intro s first path feed c now put named fetching copied
    rw [named] at created
    obtain ⟨sound, kept⟩ := copied.put appends
    refine ⟨sound, kept, _, run_of_fetching command created fetching copied,
      FtpSource.closing_goodbye c, fun answer rest offers => ?_⟩
    exact offers.heard_closing fetching.downloading.awaiting

/-- Fetches a name from a site. -/
def fetchPart : Arguments where
  readWrite := false
  fsTypes := []
  mountRoot := none
  timeout := none
  command := .fetch "ftp://mirror/pub/" "a" none

/-- Two bytes. -/
def part : Feed := .ofBytes [0x68, 0x61]

/-- The codes of the replies that were heard, with the number of commands sent before each. -/
def codes (c : Connection) : List (Nat × Nat) := c.heard.map fun p => (p.1, p.2.code)

theorem collecting_appends : Sink.collecting.Appends id where
  write s bytes n s' h := by
    obtain ⟨rfl, rfl⟩ : bytes.length = n ∧ s ++ bytes = s' := by simpa [Sink.collecting] using h
    simp
  interrupted s bytes cause s' h _ := by cases h
  flush s s' h := by
    cases h
    rfl

theorem writeAll_collecting (bytes kept : Bytes) :
    ∃ now, Sink.collecting.writeAll bytes kept = (.ok (), now) := by
  cases bytes with
  | nil => exact ⟨kept, by rw [Sink.writeAll]⟩
  | cons b more =>
    refine ⟨kept ++ b :: more, ?_⟩
    rw [Sink.writeAll]
    simp [Sink.collecting, Sink.writeAll]

/-- The part is downloaded and copied; then the finish hears that the download was aborted. -/
theorem fetchPart_fetching : ∃ s first path c now put,
    FtpSource.ofAddress "ftp://mirror/pub/" true = .ok s ∧
      Fetching s (.aborting part) "a" first path part c now ∧
      CopiedTo Sink.collecting part none ([], now.files) put ∧
      (now.ended ++ [(closing c).2]).map codes =
        [[(0, 220), (1, 200), (2, 200), (3, 200), (4, 227), (5, 150), (5, 426), (6, 200)]] := by
  have evaluated : ((FtpSource.ofAddress "ftp://mirror/pub/" true).toOption.map fun s =>
      let started := FtpSource.start (s, .aborting part)
      let opened := FtpSource.openFile "a" started.2
      (started.1.isOk, opened.1.toOption.map (Stream.contents {}),
        (FtpSource.finish opened.2).2.2.ended.map codes)) =
      some (true, some part,
        [[(0, 220), (1, 200), (2, 200), (3, 200), (4, 227), (5, 150), (5, 426), (6, 200)]]) := by
    decide +kernel
  -- The conversation is computed once; the states it goes through are named from it.
  cases named : FtpSource.ofAddress "ftp://mirror/pub/" true with
  | error e =>
    rw [named] at evaluated
    cases evaluated
  | ok s =>
    rw [named] at evaluated
    simp only [Except.toOption, Option.map_some, Option.some.injEq, Prod.mk.injEq] at evaluated
    obtain ⟨begins, opens, hears⟩ := evaluated
    obtain ⟨⟨⟩, started⟩ := exists_of_isOk begins
    obtain ⟨stream, opened, contents⟩ : ∃ stream, (FtpSource.openFile "a"
        (FtpSource.start (s, .aborting part)).2).1 = .ok stream ∧
        stream.contents {} = part := by
      cases opened : (FtpSource.openFile "a" (FtpSource.start (s, .aborting part)).2).1 with
      | error e =>
        rw [opened] at opens
        cases opens
      | ok stream =>
        rw [opened] at opens
        exact ⟨stream, rfl, Option.some.inj opens⟩
    obtain ⟨first, path, feed, c, rfl, fetching⟩ :=
      FtpSource.fetching_of_openFile (FtpSource.idle_of_ofAddress named) (Prod.ext started rfl)
        opened
    obtain rfl : feed = part := contents
    -- The feed ends without a fault, and a collecting sink takes all that it brings.
    obtain ⟨n, copied⟩ : ∃ n, (copy Sink.collecting part []).result = .ok n :=
      Copy.run_of_isSound writeAll_collecting (fun _ => ⟨_, rfl⟩)
        (Feed.IsSound.limited (congrArg Prod.snd (Feed.received_ofBytes _)) _) 0 []
    refine ⟨s, first, path, c, _, _, rfl, fetching, .output copied, ?_⟩
    rw [fetching.started] at hears
    dsimp only at hears
    rw [fetching.opened] at hears
    dsimp only at hears
    rwa [FtpSource.last_finish rfl] at hears

/-- The finish reads that the download was aborted, and the run ends well with a part of the
bytes. -/
theorem run_fetchPart_aborted :
    (Arguments.parse ["fetch", "ftp://mirror/pub/", "a"]).toOption = some fetchPart ∧
      let after := fetchPart.run Sink.collecting ([], .aborting part)
      after.1 = .ok true ∧ after.2.1 = [0x68, 0x61] ∧ after.2.2.ended.map codes =
        [[(0, 220), (1, 200), (2, 200), (3, 200), (4, 227), (5, 150), (5, 426), (6, 200)]] := by
  refine ⟨by decide +kernel, ?_⟩
  obtain ⟨s, first, path, c, now, put, named, fetching, copied, heard⟩ := fetchPart_fetching
  have created : AnySource.create "ftp://mirror/pub/" fetchPart.options = .ok (.ftp s) := by
    rw [create_site (toOption_eq_some_iff.mp (by decide +kernel))]
    exact map_eq_ok_iff.mpr ⟨s, named, rfl⟩
  obtain ⟨-, kept, -⟩ := copied.put collecting_appends
  rw [run_of_fetching rfl created fetching copied]
  exact ⟨rfl, kept.trans (congrArg Prod.fst (Feed.received_ofBytes _)), heard⟩

/-- That server sends two bytes, and they are what is fetched. -/
theorem run_fetchPart :
    fetchPart.command = .fetch "ftp://mirror/pub/" "a" none ∧
      Scheme.ofAddress "ftp://mirror/pub/" = .ok .ftp ∧ Sink.collecting.Appends id ∧
      (fetchPart.run Sink.collecting ([], .aborting part)).1 = .ok true ∧
      (fetchPart.run Sink.collecting ([], .aborting part)).2.1 = [0x68, 0x61] := by
  have site : Scheme.ofAddress "ftp://mirror/pub/" = .ok .ftp :=
    toOption_eq_some_iff.mp (by decide +kernel)
  obtain ⟨ends, leaves⟩ :=
    run_fetch_site (a := fetchPart) rfl site collecting_appends [] (.aborting part)
  obtain ⟨s, first, path, c, now, put, named, fetching, copied, -⟩ := fetchPart_fetching
  refine ⟨rfl, site, collecting_appends,
    ends.mpr ⟨s, first, path, part, c, now, put, named, fetching, copied⟩, ?_⟩
  obtain ⟨-, ⟨kept, -⟩, c', done, -⟩ :=
    leaves s first path part c now put named fetching copied
  rw [done]
  exact kept.trans (congrArg Prod.fst (Feed.received_ofBytes _))

end Arguments

end InstallMedia
