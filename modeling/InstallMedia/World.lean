import InstallMedia.Ftp.Connection
import InstallMedia.Http.Exchange
import InstallMedia.Mount.Mounter

/-!
# The world around sources

Sources work on files, through a mounter and over a network.  The world holds all three, and what
was done through them: every mount and unmount, every temporary directory, every FTP connection and
what was said on it, every HTTP request.

## Main definitions

* `Network`, `World`
* `World.mount`, `World.unmount`: the mounter at work
* `World.dial`, `World.hangUp`: the beginning and the end of an FTP connection
* `World.ask`: an HTTP request
* `Stream`: what a source hands out for reading
-/

namespace InstallMedia

/-- What answers far away, given all that was said before. -/
structure Network where
  /-- The FTP server at a host and a port, after these connections. -/
  server : List Transcript → String → Nat → Except IoFault FtpServer
  /-- The answer to an HTTP request, after these requests. -/
  answer : List HttpRequest → HttpRequest → Option HttpAnswer

/-- The network on which nobody answers. -/
def Network.unreachable : Network where
  server _ _ _ := .error (SystemError.fault .networkUnreachable)
  answer _ _ := none

/-- What was done about a temporary directory. -/
inductive PointEvent where
  | made (path : String)
  | removed (path : String)
  deriving DecidableEq, Repr

/-- Files, a mounter and a network, and what was done through them. -/
structure World where
  files : FileTree := {}
  /-- The mounter of sources that have none of their own. -/
  mounter : Mounter
  network : Network := .unreachable
  /-- The directory for temporary mount points. -/
  temporaryDirectory : String := "/tmp"
  /-- Every mount and unmount, in order. -/
  mountEvents : List MountEvent := []
  /-- Every temporary directory that was made or taken away, in order. -/
  mountPoints : List PointEvent := []
  /-- Every FTP connection that was asked for, in order. -/
  dialled : List (String × Nat) := []
  /-- Every FTP connection that has ended, as it was at its end. -/
  ended : List Connection := []
  requests : List HttpRequest := []

namespace World

/-! ## Mounts -/

/-- Mounts, with a source's own mounter or the world's. -/
def mount (mounter : Option Mounter) (call : MountCall) : Attempt World MountFault Unit := fun w =>
  let (result, files) := (mounter.getD w.mounter).mount w.mountEvents call w.files
  (result, { w with files, mountEvents := w.mountEvents ++ [.mount call (faultOf result)] })

/-- Unmounts, with a source's own mounter or the world's. -/
def unmount (mounter : Option Mounter) (target : String) : Attempt World MountFault Unit := fun w =>
  let (result, files) := (mounter.getD w.mounter).unmount w.mountEvents target w.files
  (result, { w with files, mountEvents := w.mountEvents ++ [.unmount target (faultOf result)] })

/-! ## Files -/

def onFiles {α : Type} (f : FileTree → Except IoFault (α × FileTree)) :
    Attempt World IoFault α := fun w =>
  match f w.files with
  | .ok (a, files) => (.ok a, { w with files })
  | .error cause => (.error cause, w)

/-- Makes a temporary directory and gives its path. -/
def makeTemporary (root stem : String) : Attempt World IoFault String := do
  let path ← onFiles (·.makeTemporary root stem)
  Attempt.modify fun w => { w with mountPoints := w.mountPoints ++ [.made path] }
  return path

/-- Takes an empty directory away; leaves it if that fails. -/
def tryRemoveDirectory (path : String) (w : World) : World :=
  match w.files.removeDirectory path with
  | .ok files => { w with files, mountPoints := w.mountPoints ++ [.removed path] }
  | .error _ => w

/-! ## Network -/

def dial (host : String) (port : Nat) : Attempt World FtpFault Connection := fun w =>
  let w' := { w with dialled := w.dialled ++ [(host, port)] }
  match w.network.server (w.ended.map (·.transcript)) host port with
  | .ok server => (.ok (.fresh server host), w')
  | .error cause => (.error (.io cause), w')

def hangUp (c : Connection) (w : World) : World :=
  { w with ended := w.ended ++ [c] }

def ask (request : HttpRequest) (w : World) : Option HttpAnswer × World :=
  (w.network.answer w.requests request, { w with requests := w.requests ++ [request] })

end World

/-- What a source hands out for reading. -/
inductive Stream where
  /-- An open file or directory. -/
  | file (file : OpenFile)
  /-- What comes over a network, or is held by the source itself. -/
  | feed (feed : Feed)

namespace Stream

/-- What reading a stream gives. -/
def contents (files : FileTree) : Stream → Feed
  | file f => files.feed f
  | feed f => f

/-- Reads a stream to its end or, if there is a limit, at most so many bytes. -/
def read (limit : Option Nat) (files : FileTree) (s : Stream) : Except IoFault Bytes × Stream :=
  let (result, left) :=
    match limit with
    | none => (s.contents files).gather
    | some limit => (s.contents files).take limit
  match s, result with
  | file (.file id offset), .ok bytes => (.ok bytes, file (.file id (offset + bytes.length)))
  | file f, result => (result, file f)
  | feed _, result => (result, feed left)

/-- A stream of which only `left` of its contents has not been read. -/
def advance (files : FileTree) (left : Feed) : Stream → Stream
  | file (.file id offset) =>
    file (.file id (offset + ((files.feed (.file id offset)).size - left.size)))
  | file .directory => file .directory
  | feed _ => feed left

end Stream

end InstallMedia
