import InstallMedia.Mount.Mounter

/-!
# Rehearsed mounters

A rehearsed mounter mounts nothing.  It fails for the filesystem types it is told to fail for, and
where it succeeds it puts files into the directory as if they had been mounted, and takes them away
again.

## Main definitions

* `Rehearsal`: what such a mounter does
* `Rehearsal.mounter`
-/

namespace InstallMedia

/-- What a rehearsed mounter does. -/
structure Rehearsal where
  /-- The types that are refused. -/
  refused : List String := []
  /-- The types that fail with a fault of their own. -/
  faults : List (String × MountFault) := []
  /-- The files of what is mounted. -/
  contents : List (String × Bytes) := []
  /-- The name of a file that a mount leaves behind that fails with a fault of its own. -/
  litter : Option String := none
  /-- Unmounting is refused. -/
  unmountRefused : Bool := false
  /-- Unmounting fails with this fault. -/
  unmountFault : Option MountFault := none

namespace Rehearsal

/-- The fault of a refusal. -/
def refusal : MountFault := .rejected 32

/-- Mounts. -/
def mount (r : Rehearsal) (call : MountCall) (files : FileTree) :
    Except MountFault Unit × FileTree :=
  match r.faults.lookup call.fstype with
  | some fault =>
    let files :=
      match r.litter with
      | some name => files.writeFile (FilePath.join call.target name) (Utf8.encode call.fstype)
      | none => files
    (.error fault, files)
  | none =>
    if r.refused.contains call.fstype then (.error refusal, files)
    else
      (.ok (), r.contents.foldl (fun files (name, bytes) =>
        files.writeFile (FilePath.join call.target name) bytes) files)

/-- Unmounts. -/
def unmount (r : Rehearsal) (target : String) (files : FileTree) :
    Except MountFault Unit × FileTree :=
  match r.unmountFault with
  | some fault => (.error fault, files)
  | none =>
    if r.unmountRefused then (.error refusal, files)
    else
      (.ok (), r.contents.foldl (fun files (name, _) =>
        files.removeFile (FilePath.join target name)) files)

/-- The mounter that does so. -/
def mounter (r : Rehearsal) : Mounter where
  mount _ := r.mount
  unmount _ := r.unmount

end Rehearsal

end InstallMedia
