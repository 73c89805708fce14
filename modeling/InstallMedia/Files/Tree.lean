import InstallMedia.Fault
import InstallMedia.Files.Path
import InstallMedia.Stream.Feed
import InstallMedia.Text.Quoted

/-!
# Trees of files

A tree has directories and files at locations.  The bytes of a file belong to its identity and not
to its location: a file that is open can still be read after its location is gone, and shows what is
written to it meanwhile.

## Main definitions

* `Location`, `FileTree`
* `FileTree.find`: what a path leads to
* `FileTree.openFile`, `FileTree.createFile`, `FileTree.append`
* `FileTree.makeDirectory`, `FileTree.makeTemporary`, `FileTree.removeDirectory`,
  `FileTree.removeFile`
* `OpenFile`: an open file or directory, and what reading it gives
-/

namespace InstallMedia

/-- The names that lead from the root to an entry. -/
abbrev Location := List String

abbrev FileId := Nat

/-- What stands at a location. -/
inductive Entry where
  | directory
  | file (id : FileId) (isProgram : Bool)
  deriving DecidableEq, Repr

/-- Directories and files at locations.  The root, which needs no entry, is a directory. -/
structure FileTree where
  /-- What stands where, in the order in which it was made. -/
  entries : List (Location × Entry) := []
  /-- The bytes of files. -/
  stored : List (FileId × Bytes) := []
  /-- Where relative paths begin. -/
  workingDirectory : Location := []
  /-- The number of temporary directories made so far. -/
  temporaries : Nat := 0

/-- An open file or directory. -/
inductive OpenFile where
  /-- A file, of which so many bytes have been read. -/
  | file (id : FileId) (offset : Nat)
  | directory
  deriving DecidableEq, Repr

namespace FileTree

/-! ## Entries -/

/-- What stands at a location. -/
def entry? (tree : FileTree) (location : Location) : Option Entry :=
  if location = [] then some .directory else tree.entries.lookup location

def isDirectoryAt (tree : FileTree) (location : Location) : Bool :=
  tree.entry? location = some .directory

/-- Puts an entry at a location that has none. -/
def add (tree : FileTree) (location : Location) (entry : Entry) : FileTree :=
  { tree with entries := tree.entries ++ [(location, entry)] }

def drop (tree : FileTree) (location : Location) : FileTree :=
  { tree with entries := tree.entries.filter (·.1 ≠ location) }

/-- Whether nothing stands in a directory. -/
def isEmptyAt (tree : FileTree) (location : Location) : Bool :=
  !tree.entries.any fun (l, _) => l ≠ [] && l.dropLast = location

/-! ## Bytes -/

def bytes (tree : FileTree) (id : FileId) : Bytes := (tree.stored.lookup id).getD []

/-- Puts bytes in place of the bytes of a file. -/
def put (tree : FileTree) (id : FileId) (bytes : Bytes) : FileTree :=
  { tree with stored := (id, bytes) :: tree.stored.filter (·.1 ≠ id) }

/-- Adds bytes to the end of a file. -/
def append (tree : FileTree) (id : FileId) (more : Bytes) : FileTree :=
  tree.put id (tree.bytes id ++ more)

/-- The identities that files have or had. -/
def identities (tree : FileTree) : List FileId :=
  tree.stored.map (·.1) ++ tree.entries.filterMap fun
    | (_, .file id _) => some id
    | (_, .directory) => none

/-- An identity that no file has or had. -/
def freshId (tree : FileTree) : FileId := tree.identities.foldl max 0 + 1

/-! ## Paths -/

/-- What a path leads to. -/
inductive Found where
  /-- An entry. -/
  | present (location : Location) (entry : Entry)
  /-- A place in a directory where nothing stands. -/
  | absent (location : Location)
  deriving DecidableEq, Repr

/-- Follows components from a location, which must be a directory as long as any are left. -/
def walk (tree : FileTree) (here : Location) : List String → Except SystemError Found
  | [] =>
    match tree.entry? here with
    | some entry => .ok (.present here entry)
    | none => .error .noSuchEntry
  | name :: rest =>
    if !tree.isDirectoryAt here then .error .notDirectory
    else if name = "" ∨ name = "." then walk tree here rest
    else if name = ".." then walk tree here.dropLast rest
    else if FilePath.componentLimit < FilePath.size name then .error .nameTooLong
    else if tree.entry? (here ++ [name]) |>.isSome then walk tree (here ++ [name]) rest
    else if rest.all (· = "") then .ok (.absent (here ++ [name]))
    else .error .noSuchEntry

def start (tree : FileTree) (path : String) : Location :=
  if FilePath.isAbsolute path then [] else tree.workingDirectory

/-- Refuses paths that are never looked up. -/
def checkPath (path : String) : Except IoFault Unit :=
  if FilePath.holdsTerminator path then .error .pathHoldsTerminator
  else if path = "" then .error (SystemError.fault .noSuchEntry)
  else if FilePath.sizeLimit ≤ FilePath.size path then .error (SystemError.fault .nameTooLong)
  else .ok ()

/-- What a path leads to. -/
def find (tree : FileTree) (path : String) : Except IoFault Found := do
  checkPath path
  (tree.walk (tree.start path) (FilePath.components path)).mapError SystemError.fault

/-- Whether a path leads to a directory. -/
def isDirectory (tree : FileTree) (path : String) : Bool :=
  match tree.find path with
  | .ok (.present _ .directory) => true
  | _ => false

/-- The directory in which the last component of a path stands, that component, and whether slashes
follow it. -/
def splitLast (path : String) : List String × String × Bool :=
  let named := Split.trimEnd (· = "") (FilePath.components path)
  (named.dropLast, named.getLast?.getD "",
    decide (named.length < (FilePath.components path).length))

/-- The place for a new entry: the directory must exist. -/
def findPlace (tree : FileTree) (path : String) : Except IoFault (Location × String × Bool) := do
  checkPath path
  let (above, name, slashed) := splitLast path
  -- The blank component asks that what stands above is a directory.
  match tree.walk (tree.start path) (above ++ [""]) with
  | .ok (.present here _) => .ok (here, name, slashed)
  | .ok (.absent _) => .error (SystemError.fault .noSuchEntry)
  | .error e => .error e.fault

/-! ## Files -/

/-- Opens what a path leads to for reading. -/
def openFile (tree : FileTree) (path : String) : Except IoFault OpenFile := do
  match ← tree.find path with
  | .present _ .directory => .ok .directory
  | .present _ (.file id _) => .ok (.file id 0)
  | .absent _ => .error (SystemError.fault .noSuchEntry)

/-- Whether a name can be that of a new entry. -/
def isProperName (name : String) : Bool := name ≠ "" && name ≠ "." && name ≠ ".."

/-- Makes a path lead to an empty file, which may have been there with other bytes. -/
def createFile (tree : FileTree) (path : String) : Except IoFault (FileId × FileTree) := do
  let (here, name, slashed) ← tree.findPlace path
  if !isProperName name || slashed then .error (SystemError.fault .isDirectory)
  else if FilePath.componentLimit < FilePath.size name then
    .error (SystemError.fault .nameTooLong)
  else
    match tree.entry? (here ++ [name]) with
    | some .directory => .error (SystemError.fault .isDirectory)
    -- The file keeps its identity, so those who have it open find it empty.
    | some (.file id _) => .ok (id, tree.put id [])
    | none =>
      let id := tree.freshId
      .ok (id, (tree.add (here ++ [name]) (.file id false)).put id [])

/-- Takes the file that a path leads to away. -/
def removeFile (tree : FileTree) (path : String) : FileTree :=
  match tree.find path with
  | .ok (.present location (.file _ _)) => tree.drop location
  | _ => tree

/-- Puts bytes at a path, in a file that is made if it is not there; leaves the tree if that
fails. -/
def writeFile (tree : FileTree) (path : String) (bytes : Bytes) : FileTree :=
  match tree.createFile path with
  | .ok (id, tree) => tree.put id bytes
  | .error _ => tree

/-- What reading an open file to its end gives. -/
def feed (tree : FileTree) : OpenFile → Feed
  | .file id offset => Feed.ofBytes ((tree.bytes id).drop offset)
  | .directory => [.fault (SystemError.fault .isDirectory)]

/-! ## Directories -/

def makeDirectory (tree : FileTree) (path : String) : Except IoFault FileTree := do
  let (here, name, _) ← tree.findPlace path
  if !isProperName name then .error (SystemError.fault .entryExists)
  else if FilePath.componentLimit < FilePath.size name then
    .error (SystemError.fault .nameTooLong)
  else
    match tree.entry? (here ++ [name]) with
    | some _ => .error (SystemError.fault .entryExists)
    | none => .ok (tree.add (here ++ [name]) .directory)

/-- Takes an empty directory away. -/
def removeDirectory (tree : FileTree) (path : String) : Except IoFault FileTree := do
  match ← tree.find path with
  | .absent _ => .error (SystemError.fault .noSuchEntry)
  | .present _ (.file _ _) => .error (SystemError.fault .notDirectory)
  | .present location .directory =>
    if tree.isEmptyAt location then .ok (tree.drop location)
    else .error (SystemError.fault .directoryNotEmpty)

/-- The name of the temporary directory with a number: six digits after a stem. -/
def temporaryName (stem : String) (number : Nat) : String :=
  let digits := Nat.toDigits 10 number
  stem ++ String.ofList (List.replicate (6 - digits.length) '0' ++ digits)

/-- A numbered path that leads nowhere yet, and its number; the number of tries is bounded by the
number of entries. -/
def freshTemporary (tree : FileTree) (root stem : String) : Nat :=
  -- Of one path more than there are entries, one leads nowhere.
  ((List.range (tree.entries.length + 1)).map (tree.temporaries + ·)).find? (fun n =>
    match tree.find (FilePath.join root (temporaryName stem n)) with
    | .ok (.present _ _) => false
    | _ => true) |>.getD tree.temporaries

/-- A path that does not depend on the working directory. -/
def absolute (tree : FileTree) (path : String) : String :=
  FilePath.join (String.join (tree.workingDirectory.map ("/" ++ ·))) path

/-- A fault that names the path it is about. -/
def atPath (path : String) (fault : IoFault) : IoFault :=
  { fault with message := s!"{fault.message} at path {Quoted.path path}" }

/-- Makes a new directory under `root`, with a name that begins with `stem` and is never used
twice.  Gives its path. -/
def makeTemporary (tree : FileTree) (root stem : String) : Except IoFault (String × FileTree) :=
  let number := tree.freshTemporary (tree.absolute root) stem
  let path := FilePath.join (tree.absolute root) (temporaryName stem number)
  match tree.makeDirectory path with
  | .ok tree => .ok (path, { tree with temporaries := number + 1 })
  | .error fault => .error (atPath path fault)

end FileTree

end InstallMedia
