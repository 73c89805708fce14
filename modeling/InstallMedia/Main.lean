import InstallMedia.CommandLine.Run

/-!
# The command

The command reads from disk what its arguments name, runs on that, and writes the files that the run
has changed.  It runs no programs and makes no connections, so it serves directories only.
-/

namespace InstallMedia.CommandLine

/-- The directory for mount points, unless another one is named. -/
def temporaryDirectory : String := "/tmp"

/-- The paths on disk that a run can use. -/
def pathsOf (a : Arguments) : List String :=
  let below (name : String) : List String :=
    match AnySource.create a.command.address a.options with
    | .ok (.file s) => [FilePath.join s.base name]
    | _ => []
  a.mountRoot.getD temporaryDirectory ::
    match a.command with
    | .probe _ name => below name
    | .fetch _ name output => below name ++ output.toList
    | .store _ name localFile => below name ++ [localFile]

/-- The locations that components lead through. -/
def locationsFrom (here : Location) : List String → List Location
  | [] => []
  | name :: rest =>
    let next :=
      if name = "" ∨ name = "." then here
      else if name = ".." then here.dropLast
      else here ++ [name]
    next :: locationsFrom next rest

/-- The text of a location. -/
def pathOf (location : Location) : String := "/" ++ String.intercalate "/" location

/-- The number of the error of reading a directory. -/
def directoryNumber : UInt32 := UInt32.ofNat SystemError.isDirectory.number

/-- Adds what stands at a location on disk. -/
def look (tree : FileTree) (location : Location) : IO FileTree := do
  if tree.entry? location |>.isSome then return tree
  try
    let bytes ← IO.FS.readBinFile (pathOf location)
    let id := tree.freshId
    return (tree.add location (.file id false)).put id bytes.toList
  catch
    | .inappropriateType _ number _ =>
      return if number = directoryNumber then tree.add location .directory else tree
    | _ => return tree

/-- What stands on disk where the paths lead through. -/
def snapshot (paths : List String) : IO FileTree := do
  let here := (FilePath.components (← IO.currentDir).toString).filter (· ≠ "")
  let tree : FileTree := { workingDirectory := here }
  let locations := locationsFrom [] here ++ paths.flatMap fun path =>
    locationsFrom (tree.start path) (FilePath.components path)
  locations.foldlM look tree

/-- Writes the files that have changed. -/
def writeChanges (before after : FileTree) : IO Unit := do
  for (location, entry) in after.entries do
    if let .file id _ := entry then
      if before.entry? location ≠ some entry || before.bytes id ≠ after.bytes id then
        IO.FS.writeBinFile (pathOf location) (ByteArray.mk (after.bytes id).toArray)

/-- The mounter where no programs are run. -/
def noMounter : Mounter :=
  Mounter.ofPrograms (fun _ _ files => (.error ⟨.other, "programs are not run"⟩, files))
    Mounter.defaultMountProgram Mounter.defaultUnmountProgram

/-- How the command is used. -/
def usage : String :=
  "usage: probe ADDRESS NAME\n" ++
  "       fetch ADDRESS NAME [-o PATH]\n" ++
  "       store ADDRESS NAME LOCAL_FILE\n" ++
  "options: --read-write, --fs TYPE, --mount-root DIR, --timeout SECS"

/-- Runs the command and gives its exit status. -/
def serve (words : List String) : IO UInt32 := do
  match Arguments.parse words with
  | .error fault =>
    if fault = .helpWanted ∨ fault = .versionWanted then
      IO.println usage
      return 0
    else
      IO.eprintln usage
      return 2
  | .ok a =>
    let files ← snapshot (pathsOf a)
    let world : World := { files, mounter := noMounter, temporaryDirectory }
    let (result, out, w) := a.run Sink.collecting ([], world)
    writeChanges files w.files
    (← IO.getStdout).write (ByteArray.mk out.toArray)
    match result with
    | .ok true => return 0
    | .ok false => return 1
    | .error fault =>
      IO.eprintln ("Error: " ++ fault.message)
      return 2

end InstallMedia.CommandLine

def main (words : List String) : IO UInt32 := InstallMedia.CommandLine.serve words
