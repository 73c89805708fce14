import InstallMedia.Json.Reader
import InstallMedia.Json.Value

/-!
# Mount candidates

A candidate is one filesystem type to try, with the options to mount it with.  An image of the type
`iso9660` can only be read.

## Main definitions

* `MountCandidate`
* `MountCandidate.prepared`: the candidate as it is tried
* `MountCandidate.ofJson`, `MountCandidate.toJson`
-/

namespace InstallMedia

/-- One filesystem type to try, with the options to mount it with. -/
structure MountCandidate where
  fstype : String
  options : List String
  deriving DecidableEq, Repr

namespace MountCandidate

/-- Whether an option is among those of a candidate. -/
def hasOption (c : MountCandidate) (option : String) : Bool := c.options.contains option

/-- The option of a mount that is only read. -/
def readOnlyOption : String := "ro"

/-- The filesystem type of images that can only be read. -/
def imageType : String := "iso9660"

/-- The candidate as it is tried: an image is only read. -/
def prepared (c : MountCandidate) : MountCandidate :=
  if c.fstype = imageType ∧ !c.hasOption readOnlyOption then
    { c with options := c.options ++ [readOnlyOption] }
  else c

/-! ## JSON -/

/-- A candidate being read. -/
structure Draft where
  fstype : Option String := none
  options : Option (List String) := none

/-- How a candidate is read. -/
def shape : Json.Shape Draft where
  description := "struct MountCandidate"
  lengthDescription := "struct MountCandidate with 2 elements"
  names := ["fstype", "options"]
  blank := {}
  has
    | "fstype", d => d.fstype.isSome
    | _, d => d.options.isSome
  read
    | "fstype", d => do return { d with fstype := some (← Json.string "a string") }
    | _, d => do return { d with options := some (← Json.list (Json.string "a string")) }
  required := ["fstype"]
  lenient := true

/-- The candidate that a JSON text describes. -/
def ofJson (s : String) : Except Json.Fault MountCandidate :=
  (Json.document (Json.record shape) s).map fun d =>
    ⟨d.fstype.getD "", d.options.getD []⟩

/-- The JSON text of a candidate. -/
def toJson (c : MountCandidate) : String :=
  (Json.Value.object
    [("fstype", .text c.fstype), ("options", .texts c.options)]).compact

end MountCandidate

end InstallMedia
