import InstallMedia.Address
import InstallMedia.Source.Basic

/-!
# Sources in a directory

## Main definitions

* `DirectorySource`: the files below a directory
* `FileSource`, `FileSource.ofAddress`: the files below the directory that an address names
-/

namespace InstallMedia

/-- The files below a directory. -/
structure DirectorySource where
  location : String
  readOnly : Bool
  deriving DecidableEq, Repr

namespace DirectorySource

def display (s : DirectorySource) : String := "<FilesystemAccessor: " ++ s.location ++ ">"

instance : Source DirectorySource where
  readOnly := (·.readOnly)
  openFile name := fun (s, w) => Source.openIn s.location name (s, w)
  store name := fun (stream, s, w) =>
    Source.whenWritable s.readOnly name (Source.storeIn s.location name) (stream, s, w)

end DirectorySource

/-- The files below the directory that an address names. -/
structure FileSource where
  base : String
  readOnly : Bool
  deriving DecidableEq, Repr

namespace FileSource

/-- The source of an address, which must name a directory. -/
def ofAddress (address : String) (readOnly : Bool) : Except SourceError FileSource :=
  let base := Address.stripScheme "file" address
  if base.toList.getLast? = some '/' then .ok { base, readOnly }
  else .error (.precondition (.notDirectory "file" base))

def display (s : FileSource) : String := "<FileAccessor: " ++ s.base ++ ">"

instance : Source FileSource where
  readOnly := (·.readOnly)
  openFile name := fun (s, w) => Source.openIn s.base name (s, w)
  store name := fun (stream, s, w) =>
    Source.whenWritable s.readOnly name (Source.storeIn s.base name) (stream, s, w)

end FileSource

end InstallMedia
