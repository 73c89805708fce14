import InstallMedia.CommandLine.Run
import InstallMedia.Proofs.Files.Transfer
import InstallMedia.Proofs.Source.Directory
import InstallMedia.Proofs.Source.Any

/-!
# Transfers between local files

At an address of files, fetching to a file and storing copy one local path to another.  A run that
ends well leaves at the second path the bytes that were at the first one, unless both paths lead to
the same file: that one is emptied before it is read, and its bytes are lost.

## Main definitions

* `Command.paths?`: the path that a command reads and the path that it writes

## Main results

* `Arguments.run_transferred`: what a run that ends well leaves
-/

namespace InstallMedia

variable {σ : Type} {stdout : Sink σ} {out : σ} {w : World} {found : Bool} {source target : String}

namespace Command

/-- The path that a command reads and the path that it writes, where names are seen from a local
directory. -/
def paths? (base : String) : Command → Option (String × String)
  | probe _ _ => none
  | fetch _ _ none => none
  | fetch _ name (some path) => some (FilePath.join base name, path)
  | store _ name localFile => some (localFile, FilePath.join base name)

/-- Whether a command writes to the source. -/
def writes : Command → Bool
  | store _ _ _ => true
  | _ => false

/-! ## One command -/

theorem openFile_file_of_ok [InternationalNames] {s : FileSource} {name : String} {file : OpenFile}
    (h : w.files.openFile (FilePath.join s.base name) = .ok file) :
    Source.openFile name (AnySource.file s, w) = (.ok (.file file), .file s, w) := by
  simp only [Source.openFile, AnySource.dispatch, Source.openIn, h]

theorem openFile_file_of_error [InternationalNames] {s : FileSource} {name : String}
    {cause : IoFault} (h : w.files.openFile (FilePath.join s.base name) = .error cause) :
    Source.openFile name (AnySource.file s, w) =
      (.error (.ofOpening name cause), .file s, w) := by
  simp only [Source.openFile, AnySource.dispatch, Source.openIn, h]

/-- A fetch to a file that ends well copied one path to the other. -/
theorem executeFetch_transferred [InternationalNames] {s : FileSource} {name path : String}
    (h : (executeFetch stdout name (some path) (out, AnySource.file s, w)).1 = .ok found) :
    ∃ read written files, w.files.Transferred files (FilePath.join s.base name) path read written ∧
      executeFetch stdout name (some path) (out, AnySource.file s, w) =
        (.ok true, out, .file s, { w with files }) := by
  cases opened : w.files.openFile (FilePath.join s.base name) with
  | error cause =>
    simp only [executeFetch, openFile_file_of_error opened] at h
    cases h
  | ok file =>
    cases made : w.files.createFile path with
    | error cause =>
      simp only [executeFetch, openFile_file_of_ok opened, made] at h
      cases h
    | ok new =>
      obtain ⟨written, files⟩ := new
      simp only [executeFetch, openFile_file_of_ok opened, made] at h ⊢
      obtain ⟨n, copied, -⟩ := map_eq_ok_iff.mp h
      have copied : (copy (Source.fileSink written) (files.feed file) files).result = .ok n :=
        mapError_eq_ok_iff.mp copied
      obtain ⟨read, transferred⟩ := FileTree.transferred_of_copy opened made copied
      exact ⟨read, written, _, transferred, by rw [Stream.contents, copied]; rfl⟩

/-- What was stored from an open file was copied to the path of the name. -/
theorem store_transferred [InternationalNames] {s : FileSource} {name : String} {file : OpenFile}
    (opened : w.files.openFile source = .ok file)
    (h : (Source.store name (Stream.file file, AnySource.file s, w)).1 = .ok ()) :
    s.readOnly = false ∧ ∃ read written files,
      w.files.Transferred files source (FilePath.join s.base name) read written ∧
      (Source.store name (Stream.file file, AnySource.file s, w)).2.2 =
        (.file s, { w with files }) := by
  simp only [Source.store, AnySource.store, Source.whenWritable_apply] at h ⊢
  cases hr : s.readOnly with
  | true =>
    rw [hr] at h
    cases h
  | false =>
    rw [hr, if_neg Bool.false_ne_true] at h
    obtain ⟨written, files, n, made, copied, kept⟩ := Source.storeIn_ok h
    obtain ⟨read, transferred⟩ := FileTree.transferred_of_copy opened made copied
    rw [if_neg Bool.false_ne_true]
    exact ⟨rfl, read, written, _, transferred,
      congrArg (fun now => (AnySource.file now.1, now.2)) kept⟩

/-- A store that ends well copied one path to the other. -/
theorem executeStore_transferred [InternationalNames] {s : FileSource} {name localFile : String}
    (h : (executeStore name localFile (out, AnySource.file s, w)).1 = .ok found) :
    s.readOnly = false ∧ ∃ read written files,
      w.files.Transferred files localFile (FilePath.join s.base name) read written ∧
      executeStore name localFile (out, AnySource.file s, w) =
        (.ok true, out, .file s, { w with files }) := by
  cases opened : w.files.openFile localFile with
  | error cause =>
    simp only [executeStore, opened] at h
    cases h
  | ok file =>
    simp only [executeStore, opened] at h ⊢
    obtain ⟨⟨⟩, stored, -⟩ := map_eq_ok_iff.mp h
    have stored := mapError_eq_ok_iff.mp stored
    obtain ⟨writable, read, written, files, transferred, kept⟩ := store_transferred opened stored
    rw [stored]
    exact ⟨writable, read, written, files, transferred,
      congrArg (fun now => (Except.ok true, out, now)) kept⟩

variable {s : FileSource} {c : Command} (paths : c.paths? s.base = some (source, target))

include paths

/-- A command that ends well at a source of files copied the path that it reads to the path that it
writes. -/
theorem execute_transferred [InternationalNames]
    (h : (c.execute stdout (out, AnySource.file s, w)).1 = .ok found) :
    (c.writes = true → s.readOnly = false) ∧
    ∃ read written files, w.files.Transferred files source target read written ∧
      c.execute stdout (out, AnySource.file s, w) = (.ok true, out, .file s, { w with files }) := by
  cases c with
  | probe address name => cases paths
  | fetch address name output =>
    cases output with
    | none => cases paths
    | some path =>
      obtain ⟨rfl, rfl⟩ : FilePath.join s.base name = source ∧ path = target := by
        simpa [paths?] using paths
      have h : (executeFetch stdout name (some path) (out, AnySource.file s, w)).1 = .ok found := h
      exact ⟨nofun, executeFetch_transferred h⟩
  | store address name localFile =>
    obtain ⟨rfl, rfl⟩ : localFile = source ∧ FilePath.join s.base name = target := by
      simpa [paths?] using paths
    have h : (executeStore name localFile (out, AnySource.file s, w)).1 = .ok found := h
    obtain ⟨writable, transferred⟩ := executeStore_transferred h
    exact ⟨fun _ => writable, transferred⟩

/-- A command at a source of files ends well if the path that it reads leads to a file and a file
can be made at the path that it writes. -/
theorem execute_of_paths [InternationalNames] (writable : c.writes = true → s.readOnly = false)
    {read : FileId} (opened : w.files.openFile source = .ok (.file read 0)) {written : FileId}
    {made : FileTree}
    (created : w.files.createFile target = .ok (written, made)) :
    (c.execute stdout (out, AnySource.file s, w)).1 = .ok true := by
  obtain ⟨n, copied⟩ := FileTree.copy_feed_file written read 0 made made
  cases c with
  | probe address name => cases paths
  | fetch address name output =>
    cases output with
    | none => cases paths
    | some path =>
      obtain ⟨rfl, rfl⟩ : FilePath.join s.base name = source ∧ path = target := by
        simpa [paths?] using paths
      simp only [execute, executeFetch, openFile_file_of_ok opened, created, Stream.contents,
        copied]
      rfl
  | store address name localFile =>
    obtain ⟨rfl, rfl⟩ : localFile = source ∧ FilePath.join s.base name = target := by
      simpa [paths?] using paths
    simp only [execute, executeStore, opened, Source.store, AnySource.store,
      Source.whenWritable_apply, writable rfl, Source.storeIn_of_created _ _ created,
      Stream.contents, copied]
    rfl

end Command

namespace Arguments

variable {a : Arguments}

/-- An address of files names a source if what it names ends with a slash. -/
theorem create_file_eq_ok_iff [InternationalNames] {address : String} {options : SourceOptions}
    {s : AnySource} (named : Scheme.ofAddress address = .ok .file) :
    AnySource.create address options = .ok s ↔
      (Address.stripScheme "file" address).toList.getLast? = some '/' ∧
        s = .file ⟨Address.stripScheme "file" address, options.readOnly⟩ := by
  have created : AnySource.create address options =
      (FileSource.ofAddress address options.readOnly).map .file := by
    rw [AnySource.create, named]
    rfl
  rw [created, map_eq_ok_iff]
  constructor
  · rintro ⟨files, hf, rfl⟩
    obtain ⟨slash, rfl⟩ := FileSource.ofAddress_eq_ok_iff.mp hf
    exact ⟨slash, rfl⟩
  · rintro ⟨slash, rfl⟩
    exact ⟨_, FileSource.ofAddress_eq_ok_iff.mpr ⟨slash, rfl⟩, rfl⟩

section

variable [InternationalNames] {s : FileSource}
  (created : AnySource.create a.command.address a.options = .ok (.file s))

include created

/-- In a run that ends well the command ended well. -/
theorem execute_of_run (ends : (a.run stdout (out, w)).1 = .ok found) :
    (a.command.execute stdout (out, AnySource.file s, w)).1 = .ok found := by
  have started : Source.start (AnySource.file s, w) = (.ok (), .file s, w) := rfl
  simp only [run, created, Command.bracketed_of_started started] at ends
  obtain ⟨found', executed, finished⟩ := bind_eq_ok_iff.mp ends
  obtain ⟨-, -, rfl⟩ := map_eq_ok_iff.mp finished
  exact executed

/-- A source of files has nothing to start, to finish or to give up. -/
theorem run_of_execute {files : FileTree}
    (done : a.command.execute stdout (out, AnySource.file s, w) =
      (.ok found, out, .file s, { w with files })) :
    a.run stdout (out, w) = (.ok found, out, { w with files }) := by
  have started : Source.start (AnySource.file s, w) = (.ok (), .file s, w) := rfl
  simp only [run, created, Command.bracketed_of_started started, done]
  rfl

end

/-- A run at an address of files that copies one path to another ends well when the one can be read,
the other one made, and the source is not only read if it is stored to.  It leaves at the second
path what was at the first one, unless both lead to the same file: its bytes are lost. -/
theorem run_transferred [InternationalNames] (stdout : Sink σ) (out : σ) (w : World)
    (named : Scheme.ofAddress a.command.address = .ok .file)
    (paths : a.command.paths? (Address.stripScheme "file" a.command.address) =
      some (source, target)) :
    ((a.run stdout (out, w)).1 = .ok true ↔
      (Address.stripScheme "file" a.command.address).toList.getLast? = some '/' ∧
      (a.command.writes = true → a.readWrite = true) ∧
      (∃ read, w.files.openFile source = .ok (.file read 0)) ∧
      ∃ made, w.files.createFile target = .ok made) ∧
    ((a.run stdout (out, w)).1 = .ok true → ∃ read written files,
      (a.run stdout (out, w)).2 = (out, { w with files }) ∧
      w.files.Transferred files source target read written ∧
      (files.bytes written = w.files.bytes read ↔
        w.files.openFile target ≠ .ok (.file read 0) ∨ w.files.bytes read = [])) := by
  have writable : a.options.readOnly = false ↔ a.readWrite = true := by simp [options]
  -- A run that ends well was that of a source of files, and its command ended well.
  have transfers (ends : (a.run stdout (out, w)).1 = .ok true) :
      (Address.stripScheme "file" a.command.address).toList.getLast? = some '/' ∧
      (a.command.writes = true → a.options.readOnly = false) ∧
      ∃ read written files, w.files.Transferred files source target read written ∧
        a.run stdout (out, w) = (.ok true, out, { w with files }) := by
    cases created : AnySource.create a.command.address a.options with
    | error e =>
      simp only [run, created] at ends
      cases ends
    | ok s =>
      obtain ⟨slash, rfl⟩ := (create_file_eq_ok_iff named).mp created
      obtain ⟨writable, read, written, files, transferred, done⟩ :=
        Command.execute_transferred paths (execute_of_run created ends)
      exact ⟨slash, writable, read, written, files, transferred, run_of_execute created done⟩
  refine ⟨⟨fun ends => ?_, ?_⟩, fun ends => ?_⟩
  · obtain ⟨slash, hw, read, written, files, transferred, -⟩ := transfers ends
    obtain ⟨made, created⟩ := transferred.created
    exact ⟨slash, fun h => writable.mp (hw h), ⟨read, transferred.opened⟩, _, created⟩
  · rintro ⟨slash, hw, ⟨read, opened⟩, ⟨written, made⟩, hmade⟩
    let s : FileSource := ⟨Address.stripScheme "file" a.command.address, a.options.readOnly⟩
    have created : AnySource.create a.command.address a.options = .ok (.file s) :=
      (create_file_eq_ok_iff named).mpr ⟨slash, rfl⟩
    have executed : (a.command.execute stdout (out, AnySource.file s, w)).1 = .ok true :=
      Command.execute_of_paths paths (fun h => writable.mpr (hw h)) opened hmade
    obtain ⟨-, _, _, files, -, done⟩ := Command.execute_transferred paths executed
    rw [run_of_execute created done]
  · obtain ⟨-, -, read, written, files, transferred, done⟩ := transfers ends
    rw [done]
    exact ⟨read, written, files, rfl, transferred, transferred.bytes_eq_iff⟩

/-- A directory with a file of one byte. -/
def shelf : World where
  files :=
    { entries := [(["shelf"], .directory), (["shelf", "book"], .file 0 false)]
      stored := [(0, [0x78])] }
  mounter := Rehearsal.mounter {}

/-- Fetches the file in that directory to a path. -/
def fetchBook (path : String) : Arguments where
  readWrite := false
  fsTypes := []
  mountRoot := none
  timeout := none
  command := .fetch "file:///shelf/" "book" (some path)

theorem run_fetchBook :
    Scheme.ofAddress "file:///shelf/" = .ok .file ∧
      (fetchBook "/copy").command.paths? (Address.stripScheme "file" "file:///shelf/") =
        some ("/shelf/book", "/copy") ∧
      ((fetchBook "/copy").run Sink.collecting ([], shelf)).1 = .ok true ∧
      ∃ written files, ((fetchBook "/copy").run Sink.collecting ([], shelf)).2 =
          ([], { shelf with files }) ∧
        files.openFile "/copy" = .ok (.file written 0) ∧ files.bytes written = [0x78] := by
  have named : Scheme.ofAddress "file:///shelf/" = .ok .file := by cbv
  have paths : (fetchBook "/copy").command.paths? (Address.stripScheme "file" "file:///shelf/") =
      some ("/shelf/book", "/copy") := by decide +kernel
  obtain ⟨ends, leaves⟩ :=
    run_transferred (a := fetchBook "/copy") Sink.collecting [] shelf named paths
  have reads : (fetchBook "/copy").command.writes = true → (fetchBook "/copy").readWrite = true :=
    fun writes => absurd writes Bool.false_ne_true
  have done := ends.mpr ⟨by decide +kernel, reads, ⟨0, rfl⟩, _, rfl⟩
  obtain ⟨read, written, files, now, transferred, kept⟩ := leaves done
  have opened : shelf.files.openFile "/shelf/book" = .ok (.file 0 0) := rfl
  obtain rfl : read = 0 := by simpa [opened, eq_comm] using transferred.opened
  have missing : shelf.files.openFile "/copy" = .error (SystemError.fault .noSuchEntry) := rfl
  refine ⟨named, paths, done, written, files, now, transferred.leads, kept.mpr (Or.inl ?_)⟩
  simp [missing]

/-- Fetching a file to itself ends well and leaves nothing of it. -/
theorem run_fetchBook_loses :
    (Arguments.parse ["fetch", "file:///shelf/", "book", "-o", "/shelf/book"]).toOption =
        some (fetchBook "/shelf/book") ∧
      shelf.files.openFile "/shelf/book" = .ok (.file 0 0) ∧ shelf.files.bytes 0 = [0x78] ∧
      let after := (fetchBook "/shelf/book").run Sink.collecting ([], shelf)
      after.1.toOption = some true ∧ after.2.2.files.bytes 0 = [] :=
  ⟨by decide +kernel, rfl, rfl, by decide +kernel, by decide +kernel⟩

end Arguments

end InstallMedia
