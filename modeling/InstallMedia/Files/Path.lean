import InstallMedia.Text.Split
import InstallMedia.Text.Utf8

/-!
# File paths

A path is text; slashes separate its components.  A path that begins with a slash is absolute.  A
path that ends with one names a directory.

## Main definitions

* `FilePath.join`: a name seen from a directory
* `FilePath.components`
* `FilePath.sizeLimit`, `FilePath.componentLimit`: how long paths and names can be
-/

namespace InstallMedia.FilePath

def isAbsolute (path : String) : Bool := path.toList.head? = some '/'

/-- A name seen from the directory `base`.  An absolute name is itself. -/
def join (base name : String) : String :=
  if isAbsolute name then name
  else if base = "" ∨ base.toList.getLast? = some '/' then base ++ name
  else base ++ "/" ++ name

/-- The texts between the slashes of a path. -/
def components (path : String) : List String :=
  (Split.fields (· = '/') path.toList).map String.ofList

def size (s : String) : Nat := (Utf8.encode s).length

/-- The longest path has fewer bytes than this. -/
def sizeLimit : Nat := 4096

/-- The longest component has so many bytes. -/
def componentLimit : Nat := 255

/-- Whether a text holds the character that ends texts in system calls. -/
def holdsTerminator (s : String) : Bool := s.toList.contains (Char.ofNat 0)

end InstallMedia.FilePath
