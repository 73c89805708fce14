import InstallMedia.Files.Tree
import InstallMedia.Mount.Fault

/-!
# Mounters

A mounter mounts filesystems on directories and unmounts them.  What it does may depend on all that
it was asked before, and may change files.  A mounter keeps its contract when a mount that fails
leaves nothing behind and an unmounted directory is empty.

## Main definitions

* `MountCall`, `MountEvent`: what is asked of a mounter, and how it went
* `Mounter`
-/

namespace InstallMedia

/-- A mount that is asked for. -/
structure MountCall where
  source : String
  target : String
  fstype : String
  options : List String
  deriving DecidableEq, Repr

/-- What was asked of a mounter, and why it failed if it did. -/
inductive MountEvent where
  | mount (call : MountCall) (fault : Option MountFault)
  | unmount (target : String) (fault : Option MountFault)
  deriving DecidableEq, Repr

/-- The fault of an outcome. -/
def faultOf {ε α : Type} : Except ε α → Option ε
  | .ok _ => none
  | .error e => some e

/-- What mounts and unmounts filesystems, given all that was asked before. -/
structure Mounter where
  mount : List MountEvent → MountCall → FileTree → Except MountFault Unit × FileTree
  unmount : List MountEvent → String → FileTree → Except MountFault Unit × FileTree

/-- Runs of programs on files. -/
inductive ExitStatus where
  | exited (status : Int)
  | killed
  deriving DecidableEq, Repr

/-- What running a program with arguments does. -/
abbrev Programs := String → List String → FileTree → Except IoFault ExitStatus × FileTree

namespace Mounter

/-- The arguments of the program that mounts. -/
def mountArguments (call : MountCall) : List String :=
  ["-t", call.fstype] ++
    (if call.options = [] then [] else ["-o", String.intercalate "," call.options]) ++
    [call.source, call.target]

/-- Runs a program; all but success is a fault. -/
def runProgram (programs : Programs) (program : String) (arguments : List String)
    (files : FileTree) : Except MountFault Unit × FileTree :=
  match programs program arguments files with
  | (.error cause, files) => (.error (.spawn program cause), files)
  | (.ok .killed, files) => (.error .killed, files)
  | (.ok (.exited status), files) =>
    (if status = 0 then .ok () else .error (.rejected status), files)

/-- The mounter that runs one program to mount and another to unmount. -/
def ofPrograms (programs : Programs) (mountProgram unmountProgram : String) : Mounter where
  mount _ call files := runProgram programs mountProgram (mountArguments call) files
  unmount _ target files := runProgram programs unmountProgram [target] files

/-- The program that mounts, unless another one is named. -/
def defaultMountProgram : String := "/bin/mount"

/-- The program that unmounts, unless another one is named. -/
def defaultUnmountProgram : String := "/bin/umount"

end Mounter

end InstallMedia
