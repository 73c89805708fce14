import InstallMedia.Mount.Rehearsed
import InstallMedia.Proofs.Files.Reach
import InstallMedia.Proofs.Source.Mounted
import InstallMedia.Source.Directory

/-!
# Names below a directory

Files below a directory, files that an address names and files on a mounted filesystem are reached
in the same way: a name is seen from the directory.  What is opened stands where the name leads, and
what is stored changes nothing anywhere else.  The name is not looked at before it is used: it leads
out of the directory when it is absolute, or has more steps up than names before them.

## Main definitions

* `Source.Rooted`: sources whose names are seen from a directory

## Main results

* `Source.Rooted.reaches`: where a name leads, and when that is below the directory
-/

namespace InstallMedia

open FilePath (place StaysBelow staysBelow_of_up_eq_zero)
open FileTree (OnlyAt)

namespace Source

/-- Sources whose names are seen from a directory: the mounted ones while they are started. -/
inductive Rooted : {α : Type} → [Source α] → α → String → Prop where
  | directory (s : DirectorySource) : Rooted s s.location
  | file (s : FileSource) : Rooted s s.base
  | mounted (s : MountedSource) {location : String} (started : s.location? = some location) :
    Rooted s location

variable {α : Type} {base name : String} {w : World}

/-- What is opened stands where the name leads. -/
theorem openIn_spec {a a' : α} {w' : World} {stream : Stream}
    (h : openIn base name (a, w) = (.ok stream, a', w')) :
    ∃ entry, w.files.entry? ((place (FilePath.join base name)).location
      w.files.workingDirectory) = some entry ∧ stream = .file entry.opened := by
  obtain ⟨file, opened, rfl, -, -⟩ := openIn_ok h
  obtain ⟨entry, stands, rfl⟩ := FileTree.openFile_spec opened
  exact ⟨entry, stands, rfl⟩

/-- What is stored changes nothing but what stands where the name leads. -/
theorem storeIn_onlyAt (base name : String) (source : Stream) (a : α) (w : World) :
    OnlyAt ((place (FilePath.join base name)).location w.files.workingDirectory) w.files
      (storeIn base name (source, a, w)).2.2.2.files := by
  cases hc : w.files.createFile (FilePath.join base name) with
  | error cause =>
    rw [storeIn_of_error _ _ hc]
    exact OnlyAt.refl _ _
  | ok made =>
    obtain ⟨id, files⟩ := made
    rw [storeIn_of_created _ _ hc]
    obtain ⟨only, isProgram, stands⟩ := FileTree.createFile_onlyAt hc
    -- Every piece that is written goes to the file that was made.
    let inv (tree : FileTree) : Prop :=
      OnlyAt ((place (FilePath.join base name)).location w.files.workingDirectory) w.files tree ∧
        tree.entry? ((place (FilePath.join base name)).location w.files.workingDirectory) =
          some (.file id isProgram)
    have writes : ∀ tree bytes, inv tree → inv ((fileSink id).write tree bytes).2 :=
      fun tree bytes h => ⟨h.1.put h.2 _, h.2⟩
    have copied : inv (copy (fileSink id) (source.contents files) files).sink :=
      Copy.run_sink writes (fun _ h => h) 0 _ ⟨only, stands⟩
    exact copied.1

/-- What a name opens stands where the name leads, and what is stored under it changes nothing
anywhere else.  That is at or below the base exactly when the name stays below it. -/
theorem Rooted.reaches [Source α] {a : α} (rooted : Rooted a base) (name : String) (w : World) :
    let place := FilePath.place (FilePath.join base name)
    let location := place.location w.files.workingDirectory
    (∀ stream s, Source.openFile name (a, w) = (.ok stream, s) →
      ∃ entry, w.files.entry? location = some entry ∧ stream = .file entry.opened) ∧
    (∀ source, OnlyAt location w.files (Source.store name (source, a, w)).2.2.2.files) ∧
    ((FilePath.place base).IsBelow place ↔ StaysBelow base name) ∧
    (StaysBelow base name →
      (FilePath.place base).location w.files.workingDirectory <+: location) := by
  intro place location
  have below : (FilePath.place base).IsBelow place ↔ StaysBelow base name :=
    FilePath.isBelow_place_join_iff base name
  have stores (readOnly : Bool) (source : Stream) : OnlyAt location w.files
      (whenWritable readOnly name (storeIn base name) (source, a, w)).2.2.2.files := by
    rw [whenWritable_apply]
    split
    · exact OnlyAt.refl _ _
    · exact storeIn_onlyAt base name source a w
  refine ⟨?_, ?_, below, fun stays => (below.mpr stays).location _⟩
  · intro stream s h
    cases rooted with
    | directory => exact openIn_spec h
    | file => exact openIn_spec h
    | mounted m started =>
      rw [MountedSource.openFile_apply, MountedSource.locate, started] at h
      exact openIn_spec h
  · intro source
    cases rooted with
    | directory s => exact stores s.readOnly source
    | file s => exact stores s.readOnly source
    | mounted m started =>
      have same := stores m.readOnly source
      rw [whenWritable_apply] at same
      rw [MountedSource.store_apply, MountedSource.locate, started]
      exact same

/-- The files below `/media`. -/
def media : DirectorySource := { location := "/media", readOnly := false }

/-- A world with the directory `/media`, and with a file of one byte beside it. -/
def besideMedia : World where
  files :=
    { entries := [(["media"], .directory), (["secret"], .file 0 false)]
      stored := [(0, [0x73])] }
  mounter := Rehearsal.mounter {}

theorem media_reaches_comps :
    Rooted media "/media" ∧ StaysBelow "/media" "repodata/../comps.xml" ∧
      (place "/media").IsBelow (place (FilePath.join "/media" "repodata/../comps.xml")) := by
  have rooted : Rooted media "/media" := .directory media
  obtain ⟨-, -, below, -⟩ := rooted.reaches "repodata/../comps.xml" besideMedia
  have stays : StaysBelow "/media" "repodata/../comps.xml" :=
    staysBelow_of_up_eq_zero (by decide) (by decide) "/media"
  exact ⟨rooted, stays, below.mpr stays⟩

/-- One step up leads out of the directory, and an absolute name leads anywhere: the file beside the
directory is read, and storing nothing under its name empties it. -/
theorem media_leaves :
    ¬ (place "/media").IsBelow (place (FilePath.join "/media" "../secret")) ∧
      ¬ (place "/media").IsBelow (place (FilePath.join "/media" "/secret")) ∧
      (Source.openFile "../secret" (media, besideMedia)).1.toOption = some (.file (.file 0 0)) ∧
      (Source.store "/secret" (.feed [], media, besideMedia)).2.2.2.files.bytes 0 = [] :=
  ⟨by decide, by decide, rfl, rfl⟩

end Source

end InstallMedia
