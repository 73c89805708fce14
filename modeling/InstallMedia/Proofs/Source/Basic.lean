import InstallMedia.Proofs.Attempt
import InstallMedia.Proofs.Files.Tree
import InstallMedia.Proofs.Stream.Copy
import InstallMedia.Source.Basic

/-!
# Opening and storing below a directory

## Main results

* `Source.openIn_ok`, `Source.openIn_snd`: what opening a name gives, and that it changes nothing
* `Source.storeIn_of_created`, `Source.storeIn_of_error`: what storing under a name does
* `Source.storeIn_snd`, `Source.storeIn_ok`: what it changes, and what it does if it ends well
-/

namespace InstallMedia

namespace Source

variable {α : Type} {base name : String} {w : World}

/-! ## Opening -/

/-- A name is opened when its path can be, and nothing changes. -/
theorem openIn_ok {a a' : α} {w' : World} {stream : Stream}
    (h : openIn base name (a, w) = (.ok stream, a', w')) :
    ∃ file, w.files.openFile (FilePath.join base name) = .ok file ∧ stream = .file file ∧
      a' = a ∧ w' = w := by
  delta openIn at h
  dsimp only at h
  split at h
  · rename_i file opened
    obtain ⟨rfl, rfl, rfl⟩ : Stream.file file = stream ∧ a = a' ∧ w = w' := by simpa using h
    exact ⟨file, opened, rfl, rfl, rfl⟩
  · simp at h

/-- Opening a name changes nothing. -/
theorem openIn_snd (base name : String) (s : α × World) : (openIn base name s).2 = s := by
  -- The tree is not to be searched here, which making an equation for `openIn` would do.
  delta openIn
  dsimp only
  split <;> rfl

/-! ## Storing -/

theorem storeIn_of_error {cause : IoFault} (stream : Stream) (a : α)
    (h : w.files.createFile (FilePath.join base name) = .error cause) :
    storeIn base name (stream, a, w) = (.error (.ofOpening name cause), stream, a, w) := by
  delta storeIn
  dsimp only
  rw [h]

/-- What is stored is copied to a file that is made for it. -/
theorem storeIn_of_created {id : FileId} {files : FileTree} (stream : Stream) (a : α)
    (h : w.files.createFile (FilePath.join base name) = .ok (id, files)) :
    storeIn base name (stream, a, w) =
      let c := copy (fileSink id) (stream.contents files) files
      ((c.result.map fun _ => ()).mapError .io, stream.advance files c.left, a,
        { w with files := c.sink }) := by
  delta storeIn
  dsimp only
  rw [h]

/-- Copying to a file changes no directory. -/
theorem copy_fileSink_keepsDirectories {tree files : FileTree} (h : tree.KeepsDirectories files)
    (id : FileId) (feed : Feed) : tree.KeepsDirectories (copy (fileSink id) feed files).sink :=
  Copy.run_sink (fun _ bytes h => h.append id bytes) (fun _ h => h) 0 _ h

/-- Storing changes at most files. -/
theorem storeIn_snd (base name : String) (stream : Stream) (a : α) (w : World) :
    ∃ files : FileTree, w.files.KeepsDirectories files ∧
      (storeIn base name (stream, a, w)).2.2 = (a, { w with files }) := by
  cases made : w.files.createFile (FilePath.join base name) with
  | error cause =>
    rw [storeIn_of_error stream a made]
    exact ⟨w.files, .refl w.files, rfl⟩
  | ok new =>
    rw [storeIn_of_created stream a made]
    have created := FileTree.createFile_keepsDirectories made
    exact ⟨_, copy_fileSink_keepsDirectories created _ _, rfl⟩

/-- What was stored was copied whole to a file that was made for it. -/
theorem storeIn_ok {stream : Stream} {a : α}
    (h : (storeIn base name (stream, a, w)).1 = .ok ()) :
    ∃ id files n, w.files.createFile (FilePath.join base name) = .ok (id, files) ∧
      (copy (fileSink id) (stream.contents files) files).result = .ok n ∧
      (storeIn base name (stream, a, w)).2.2 =
        (a, { w with files := (copy (fileSink id) (stream.contents files) files).sink }) := by
  cases made : w.files.createFile (FilePath.join base name) with
  | error cause =>
    rw [storeIn_of_error stream a made] at h
    cases h
  | ok new =>
    rw [storeIn_of_created stream a made] at h ⊢
    obtain ⟨n, copied, -⟩ := map_eq_ok_iff.mp (mapError_eq_ok_iff.mp h)
    exact ⟨new.1, new.2, n, rfl, copied, rfl⟩

end Source

end InstallMedia
