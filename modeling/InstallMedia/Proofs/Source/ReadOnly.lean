import InstallMedia.Proofs.Ftp.Obliging
import InstallMedia.Proofs.Ftp.Speech
import InstallMedia.Proofs.Source.Any
import InstallMedia.Proofs.Source.Frame

/-!
# Sources that are only read

A source that was made to be only read refuses every store before it does anything, and mounts only
with the option for reading.  No command that it sends to an FTP server stores anything; but a
command is not looked at before it is sent, so what follows a line end in a name is a line of its
own, which can be anything.

## Main definitions

* `FtpServer.AsksToStore`: lines that ask a server to store
* `AnySource.received`: what FTP servers have received

## Main results

* `FtpSource.run_speaks`: the commands of a run of a site that is only read
* `AnySource.run_readOnly`: what a source that is only read does in a run
-/

namespace InstallMedia

open Connection (wire)

/-! ## Stores among calls and commands -/

/-- Whether a call stores. -/
def Call.isStore : Call → Bool
  | .store _ _ => true
  | _ => false

namespace FtpServer

/-- A line that asks a server to store: its verb is `STOR`, in letters of either case. -/
def AsksToStore (line : Bytes) : Prop := (line.take 4).map (· ||| 0x20) = Utf8.encode "stor"

instance (line : Bytes) : Decidable (AsksToStore line) :=
  inferInstanceAs (Decidable ((line.take 4).map (· ||| 0x20) = Utf8.encode "stor"))

/-- The first letters of the verbs that do not store. -/
def readingLetters : List Char := ['U', 'P', 'C', 'Q', 'T', 'R', 'N']

/-- A command that begins with one of these letters. -/
def Reads (command : String) : Prop :=
  ∃ letter ∈ readingLetters, ∃ rest, command.toList = letter :: rest

theorem Reads.append {verb : String} (h : Reads verb) (argument : String) :
    Reads (verb ++ argument) := by
  obtain ⟨letter, hl, rest, spelt⟩ := h
  exact ⟨letter, hl, rest ++ argument.toList, by simp [spelt]⟩

/-- Such a command asks for no store on its first line. -/
theorem Reads.split_wire {command : String} (h : Reads command) :
    ∃ line more, Lines.split (wire command) = line :: more ∧ ¬ AsksToStore line := by
  obtain ⟨letter, hl, rest, spelt⟩ := h
  have letters : ∀ letter ∈ readingLetters,
      letter.toNat < 0x80 ∧ letter.toNat.toUInt8 ||| 0x20 ≠ 0x73 :=
    List.forall_iff_forall_mem.mp (by decide)
  obtain ⟨ascii, other⟩ := letters letter hl
  have begins : wire command =
      letter.toNat.toUInt8 :: (Utf8.encodeChars rest ++ Connection.lineEnd) := by
    rw [wire, Utf8.encode, spelt, Utf8.encodeChars, List.flatMap_cons,
      Utf8.encodeChar_ascii ascii]
    rfl
  obtain ⟨line, more, cut⟩ := Lines.split_cons letter.toNat.toUInt8
    (Utf8.encodeChars rest ++ Connection.lineEnd)
  refine ⟨_, more, by rw [begins, cut], fun asks => other ?_⟩
  have spelling : (letter.toNat.toUInt8 ||| 0x20) :: (line.take 3).map (· ||| 0x20) =
      [0x73, 0x74, 0x6F, 0x72] := asks
  exact (List.cons.inj spelling).1

/-- The lines of a command without a line end inside are the command. -/
theorem split_wire_of_notMem {command : String} (h : '\n' ∉ command.toList) :
    Lines.split (wire command) = [wire command] := by
  have cut := (Lines.split_flatMap_iff (fun c => Utf8.encode c ++ [0x0D]) [command]).mpr (by
    intro c hc
    obtain rfl := List.mem_singleton.mp hc
    simpa [Lines.feed] using Lines.feed_notMem_encode.mpr h)
  simpa [FtpSource.wire_eq] using cut

/-- Among the lines of such commands one asks to store exactly when it follows a line end inside a
command. -/
theorem exists_asksToStore_iff {commands : List String} (h : ∀ command ∈ commands, Reads command) :
    (∃ line ∈ Lines.split (commands.flatMap wire), AsksToStore line) ↔
      ∃ command ∈ commands, '\n' ∈ command.toList ∧
        ∃ line ∈ (Lines.split (wire command)).tail, AsksToStore line := by
  have cut : Lines.split (commands.flatMap wire) =
      commands.flatMap fun command => Lines.split (wire command) := by
    rw [FtpSource.wire_eq]
    exact Lines.split_flatMap _ _
  rw [cut]
  constructor
  · rintro ⟨line, hline, asks⟩
    obtain ⟨command, hc, hline⟩ := List.mem_flatMap.mp hline
    obtain ⟨first, more, lines, mild⟩ := (h command hc).split_wire
    have later : line ∈ more := by
      rw [lines] at hline
      rcases List.mem_cons.mp hline with rfl | later
      · exact absurd asks mild
      · exact later
    refine ⟨command, hc, ?_, line, by rwa [lines], asks⟩
    by_contra single
    rw [split_wire_of_notMem single] at lines
    obtain rfl := (List.cons.inj lines).2
    cases later
  · rintro ⟨command, hc, -, line, hline, asks⟩
    exact ⟨line, List.mem_flatMap.mpr ⟨command, hc, List.mem_of_mem_tail hline⟩, asks⟩

end FtpServer

open FtpServer (AsksToStore Reads)

namespace FtpSource

theorem nameScript_mem {name command : String} {commands : String → List String}
    (h : command ∈ nameScript name commands) : ∃ path, command ∈ commands path := by
  unfold nameScript at h
  split at h
  · exact ⟨_, h⟩
  · cases h

theorem reads_of_mem_openingScript {a : Address} {command : String}
    (h : command ∈ openingScript a) : Reads command := by
  unfold openingScript at h
  split at h
  · rcases List.mem_append.mp h with h | h
    · rcases List.mem_pair.mp h with rfl | rfl
      · exact Reads.append ⟨'U', by decide, _, rfl⟩ _
      · exact Reads.append ⟨'P', by decide, _, rfl⟩ _
    · split at h
      · split at h
        · cases h
        · obtain rfl := List.mem_singleton.mp h
          exact Reads.append ⟨'C', by decide, _, rfl⟩ _
      · cases h
  · cases h

/-- A call that does not store has no command in its script that does. -/
theorem reads_of_mem_script {a : Address} {call : Call} (reads : call.isStore = false)
    {command : String} (h : command ∈ script a call) : Reads command := by
  have transfer {type verb : String} (ht : Reads type) (hv : Reads verb)
      (hc : command ∈ [type, "PASV", verb]) : Reads command := by
    rcases List.mem_cons.mp hc with rfl | hc
    · exact ht
    rcases List.mem_pair.mp hc with rfl | rfl
    · exact ⟨'P', by decide, _, rfl⟩
    · exact hv
  cases call with
  | start => exact reads_of_mem_openingScript h
  | finish =>
    obtain rfl := List.mem_singleton.mp h
    exact ⟨'Q', by decide, _, rfl⟩
  | openFile name =>
    obtain ⟨path, h⟩ := nameScript_mem h
    exact transfer ⟨'T', by decide, _, rfl⟩ (Reads.append ⟨'R', by decide, _, rfl⟩ _) h
  | has name =>
    obtain ⟨path, h⟩ := nameScript_mem h
    refine transfer ⟨'T', by decide, _, rfl⟩ ?_ h
    unfold Connection.listingCommand
    split
    · exact ⟨'N', by decide, _, rfl⟩
    · exact Reads.append ⟨'N', by decide, _, rfl⟩ _
  | store name stream => cases reads

/-! ## Sites -/

theorem readOnly_of_ofAddress [InternationalNames] {address : String} {readOnly : Bool}
    {s : FtpSource} (h : ofAddress address readOnly = .ok s) : s.readOnly = readOnly := by
  obtain ⟨-, parts, -, -, rfl⟩ := ofAddress_eq_ok_iff.mp h
  rfl

/-- A site that is only read stores nothing. -/
theorem store_readOnly {s : FtpSource × World} (readOnly : s.1.readOnly = true) (name : String)
    (stream : Stream) : Source.store name (stream, s) =
      (.error (.precondition (.readOnly name)), stream, s) := by
  obtain ⟨s, w⟩ := s
  refine (Source.whenWritable_apply s.readOnly name _ (stream, s, w)).trans ?_
  rw [if_pos readOnly]

/-- A run of a site that is only read sends commands of the calls that do not store, and nothing
else. -/
theorem run_speaks (calls : List Call) {s : FtpSource × World} (readOnly : s.1.readOnly = true) :
    ∃ commands : List String,
      received (Call.run calls s) = received s ++ commands.flatMap wire ∧
      ∀ command ∈ commands, ∃ call ∈ calls, call.isStore = false ∧
        command ∈ script s.1.address call := by
  induction calls generalizing s with
  | nil => exact ⟨[], by simp, by simp⟩
  | cons call calls ih =>
    rw [Call.run_cons]
    -- A call that stores says nothing, since the site is only read.
    obtain ⟨commands, hreceived, mine⟩ : ∃ commands : List String,
        received (call.perform s).2 = received s ++ commands.flatMap wire ∧
        ∀ command ∈ commands, call.isStore = false ∧ command ∈ script s.1.address call := by
      cases store : call.isStore with
      | true =>
        cases call with
        | store name stream =>
          have silent : ((Call.store name stream).perform s).2 = s := by
            change (Source.store name (stream, s)).2.2 = s
            rw [store_readOnly readOnly]
          exact ⟨[], by simp [silent], by simp⟩
        | _ => cases store
      | false =>
        obtain ⟨commands, hc, hreceived⟩ := perform_speaks call s
        exact ⟨commands, hreceived, fun command h => ⟨rfl, hc.subset h⟩⟩
    obtain ⟨session, dialled, ended, frame⟩ := perform_frame call s
    have stays : (call.perform s).2.1.readOnly = true := by rwa [frame]
    have address : (call.perform s).2.1.address = s.1.address := by rw [frame]
    obtain ⟨later, hlater, all⟩ := ih stays
    rw [address] at all
    refine ⟨commands ++ later, ?_, fun command h => ?_⟩
    · rw [hlater, hreceived, List.flatMap_append, List.append_assoc]
    · rcases List.mem_append.mp h with h | h
      · exact ⟨call, List.mem_cons_self, mine command h⟩
      · obtain ⟨call', hcall, reads⟩ := all command h
        exact ⟨call', List.mem_cons_of_mem _ hcall, reads⟩

end FtpSource

/-! ## Other sources -/

theorem MountedSource.store_readOnly {s : MountedSource} (readOnly : s.readOnly = true)
    (name : String) (stream : Stream) (w : World) : Source.store name (stream, s, w) =
      (.error (.precondition (.readOnly name)), stream, s, w) := by
  rw [MountedSource.store_apply, if_pos readOnly]

namespace FileSource

theorem store_readOnly {s : FileSource} (readOnly : s.readOnly = true) (name : String)
    (stream : Stream) (w : World) : Source.store name (stream, s, w) =
      (.error (.precondition (.readOnly name)), stream, s, w) := by
  refine (Source.whenWritable_apply s.readOnly name _ (stream, s, w)).trans ?_
  rw [if_pos readOnly]

end FileSource

/-! ## Sources of any kind -/

namespace AnySource

/-- What FTP servers have received. -/
def received : AnySource × World → Bytes
  | (ftp s, w) => FtpSource.received (s, w)
  | (_, w) => w.ended.flatMap Connection.said

/-- The commands that a call may send to an FTP server, in order. -/
def script : AnySource → Call → List String
  | ftp s, call => FtpSource.script s.address call
  | _, _ => []

theorem reads_of_mem_script {s : AnySource} {call : Call} (reads : call.isStore = false)
    {command : String} (h : command ∈ s.script call) : Reads command := by
  cases s with
  | ftp s => exact FtpSource.reads_of_mem_script reads h
  | _ => cases h

/-- A mount that is only read. -/
def mountsToRead (call : MountCall) : Prop := MountCandidate.readOnlyOption ∈ call.options

/-- A source that refuses to store, and mounts only to read. -/
def OnlyReads : AnySource → Prop
  | nfs s => s.inner.readOnly = true ∧
      MountedSource.TriesOnly mountsToRead s.inner.device s.inner.candidates
  | device s => s.inner.readOnly = true ∧
      MountedSource.TriesOnly mountsToRead s.inner.device s.inner.candidates
  | ftp s => s.readOnly = true
  | file s => s.readOnly = true
  | http _ => True

theorem triesOnly_of_options {device : String} {candidates : List MountCandidate}
    (h : ∀ c ∈ candidates, MountCandidate.readOnlyOption ∈ c.options) :
    MountedSource.TriesOnly mountsToRead device candidates :=
  fun c hc _ => MountCandidate.mem_prepared_options (h c hc)

/-- A source that was made to be only read is one. -/
theorem onlyReads_of_createFor [InternationalNames] {known : Scheme} {address : String}
    {options : SourceOptions} {s : AnySource} (h : createFor known address options = .ok s)
    (readOnly : options.readOnly = true) : s.OnlyReads := by
  cases known with
  | nfs =>
    obtain rfl := Except.ok.inj h
    refine ⟨readOnly, triesOnly_of_options fun c hc => ?_⟩
    obtain rfl := List.mem_singleton.mp hc
    simp [NfsSource.options, readOnly]
  | dev =>
    obtain rfl := Except.ok.inj h
    refine ⟨readOnly, triesOnly_of_options fun c hc => ?_⟩
    obtain ⟨type, -, rfl⟩ := List.mem_map.mp hc
    simp [DeviceSource.options, readOnly]
  | http =>
    obtain ⟨site, -, rfl⟩ := map_eq_ok_iff.mp h
    trivial
  | https =>
    obtain ⟨site, -, rfl⟩ := map_eq_ok_iff.mp h
    trivial
  | ftp =>
    obtain ⟨site, hs, rfl⟩ := map_eq_ok_iff.mp h
    exact (FtpSource.readOnly_of_ofAddress hs).trans readOnly
  | file =>
    obtain ⟨files, hf, rfl⟩ := map_eq_ok_iff.mp h
    obtain ⟨-, rfl⟩ := FileSource.ofAddress_eq_ok_iff.mp hf
    exact readOnly

/-- A source that only reads refuses every store, and nothing is done. -/
theorem OnlyReads.store [InternationalNames] {s : AnySource} (h : s.OnlyReads) (name : String)
    (stream : Stream) (w : World) : ∃ breach, Source.store name (stream, s, w) =
      (.error (.precondition breach), stream, s, w) := by
  -- What the source inside refuses, the source refuses, and puts it back as it was.
  cases s with
  | nfs s =>
    have refused := MountedSource.store_readOnly h.1 name stream w
    exact ⟨.readOnly name, congrArg
      (fun r => (r.1, r.2.1, AnySource.nfs { s with inner := r.2.2.1 }, r.2.2.2)) refused⟩
  | device s =>
    have refused := MountedSource.store_readOnly h.1 name stream w
    exact ⟨.readOnly name, congrArg
      (fun r => (r.1, r.2.1, AnySource.device { s with inner := r.2.2.1 }, r.2.2.2)) refused⟩
  | http s => exact ⟨.cannotWrite name, rfl⟩
  | ftp s =>
    have refused := FtpSource.store_readOnly (s := (s, w)) h name stream
    exact ⟨.readOnly name,
      congrArg (fun r => (r.1, r.2.1, AnySource.ftp r.2.2.1, r.2.2.2)) refused⟩
  | file s =>
    have refused := FileSource.store_readOnly h name stream w
    exact ⟨.readOnly name,
      congrArg (fun r => (r.1, r.2.1, AnySource.file r.2.2.1, r.2.2.2)) refused⟩

/-- What a source that only reads does in a run, and that it stays one. -/
theorem OnlyReads.run [InternationalNames] {s : AnySource} (h : s.OnlyReads) (calls : List Call)
    (w : World) :
    (Call.run calls (s, w)).1.OnlyReads ∧
    (∃ asked, (Call.run calls (s, w)).2.mountEvents = w.mountEvents ++ asked ∧
      ∀ call fault, .mount call fault ∈ asked → mountsToRead call) ∧
    ∃ commands : List String,
      received (Call.run calls (s, w)) = received (s, w) ++ commands.flatMap wire ∧
      ∀ command ∈ commands, ∃ call ∈ calls, call.isStore = false ∧ command ∈ s.script call := by
  cases s with
  | nfs s =>
    have asking := MountBacked.run_asking calls (s, w) h.2
    have ended : (Call.run calls (s, w)).2.ended = w.ended := asking.asks.ended
    rw [wraps_nfs.run]
    exact ⟨⟨asking.readOnly_eq.trans h.1, asking.may⟩, asking.asks.asked, [],
      by simp [received, ended], by simp⟩
  | device s =>
    have asking := MountBacked.run_asking calls (s, w) h.2
    have ended : (Call.run calls (s, w)).2.ended = w.ended := asking.asks.ended
    rw [wraps_device.run]
    exact ⟨⟨asking.readOnly_eq.trans h.1, asking.may⟩, asking.asks.asked, [],
      by simp [received, ended], by simp⟩
  | http s =>
    obtain ⟨requests, now⟩ := HttpSource.run_frame calls s w
    rw [wraps_http.run, now]
    exact ⟨trivial, ⟨[], by simp, by simp⟩, [], by simp [received], by simp⟩
  | ftp s =>
    obtain ⟨commands, said, all⟩ := FtpSource.run_speaks (s := (s, w)) calls h
    obtain ⟨session, dialled, ended, now⟩ := FtpSource.run_frame calls (s, w)
    rw [wraps_ftp.run]
    rw [now] at said ⊢
    exact ⟨h, ⟨[], by simp, by simp⟩, commands, said, all⟩
  | file s =>
    obtain ⟨files, now⟩ := FileSource.run_frame calls s w
    rw [wraps_file.run, now]
    exact ⟨h, ⟨[], by simp, by simp⟩, [], by simp [received], by simp⟩

/-- **A source that was made to be only read** refuses every store, at every moment, and then
nothing is read, sent or changed; whatever types it is made to try, it mounts only to read; and all
that FTP servers receive is commands of calls that do not store.  A line that asks a server to store
is among them exactly when it follows a line end inside such a command. -/
theorem run_readOnly [InternationalNames] {address : String} {options : SourceOptions}
    {s : AnySource} (created : create address options = .ok s) (readOnly : options.readOnly = true)
    (calls : List Call) (w : World) :
    let now := Call.run calls (s, w)
    (∀ name stream, ∃ breach, Source.store name (stream, now) =
      (.error (.precondition breach), stream, now)) ∧
    (∃ asked, now.2.mountEvents = w.mountEvents ++ asked ∧
      ∀ call fault, .mount call fault ∈ asked → MountCandidate.readOnlyOption ∈ call.options) ∧
    ∃ commands : List String,
      received now = received (s, w) ++ commands.flatMap wire ∧
      (∀ command ∈ commands, ∃ call ∈ calls, call.isStore = false ∧ command ∈ s.script call) ∧
      ((∃ line ∈ Lines.split (commands.flatMap wire), AsksToStore line) ↔
        ∃ command ∈ commands, '\n' ∈ command.toList ∧
          ∃ line ∈ (Lines.split (wire command)).tail, AsksToStore line) := by
  intro now
  obtain ⟨known, -, made⟩ := bind_eq_ok_iff.mp created
  have reads := onlyReads_of_createFor made readOnly
  obtain ⟨stays, asked, commands, said, all⟩ := reads.run calls w
  refine ⟨fun name stream => stays.store name stream now.2, asked, commands, said, all, ?_⟩
  apply FtpServer.exists_asksToStore_iff
  intro command hc
  obtain ⟨call, -, reading, hcommand⟩ := all command hc
  exact reads_of_mem_script reading hcommand

theorem run_site_refuses :
    ∃ s, create "ftp://mirror/pub/" { readOnly := true } = .ok s ∧
      ∀ name stream, ∃ breach,
        Source.store name (stream, Call.run [.start, .openFile "a"] (s, .obliging [])) =
          (.error (.precondition breach), stream,
            Call.run [.start, .openFile "a"] (s, .obliging [])) := by
  have made : (create "ftp://mirror/pub/" { readOnly := true }).isOk = true := by decide +kernel
  cases created : create "ftp://mirror/pub/" { readOnly := true } with
  | error e =>
    rw [created] at made
    cases made
  | ok s => exact ⟨s, rfl, (run_readOnly created rfl [.start, .openFile "a"] (.obliging [])).1⟩

/-- A line end in a name makes such a site send a line that asks to store. -/
theorem run_site_stores :
    ((create "ftp://mirror/pub/" { readOnly := true }).toOption.map fun s =>
        Lines.split (received
          (Call.run [.start, .openFile "x%0D%0ASTOR%20y"] (s, .obliging [])))) =
      some (["USER anonymous", "CWD pub/", "TYPE I", "PASV", "RETR x", "STOR y"].map wire) ∧
    AsksToStore (wire "STOR y") := by
  decide +kernel

end AnySource

end InstallMedia
