import InstallMedia.Json.Reader
import InstallMedia.Json.Value
import InstallMedia.Source.Any

/-!
# Descriptions of sources

A source can be described in JSON: its address and the options to make it with.  Unless the
description says otherwise, the source is only read.

## Main definitions

* `SourceConfig`
* `SourceConfig.ofJson`, `SourceConfig.toJson`
* `SourceConfig.options`, `SourceConfig.build`
-/

namespace InstallMedia

/-- The description of a source. -/
structure SourceConfig where
  address : String
  readOnly : Bool := true
  fsTypes : Option (List String) := none
  mountRoot : Option String := none
  httpTimeout : Option Nat := none
  deriving DecidableEq, Repr

namespace SourceConfig

/-- A description being read. -/
structure Draft where
  address : Option String := none
  readOnly : Option Bool := none
  fsTypes : Option (Option (List String)) := none
  mountRoot : Option (Option String) := none
  httpTimeout : Option (Option Nat) := none

/-- Whether a draft has a member. -/
def Draft.has (name : String) (d : Draft) : Bool :=
  match name with
  | "address" => d.address.isSome
  | "read_only" => d.readOnly.isSome
  | "fs_types" => d.fsTypes.isSome
  | "mount_root" => d.mountRoot.isSome
  | _ => d.httpTimeout.isSome

/-- Reads a member into a draft. -/
def Draft.read (name : String) (d : Draft) : Json.Reader Draft :=
  match name with
  | "address" => do return { d with address := some (← Json.string "a string") }
  | "read_only" => do return { d with readOnly := some (← Json.bool) }
  | "fs_types" => do
    return { d with fsTypes := some (← Json.optional (Json.list (Json.string "a string"))) }
  | "mount_root" => do
    return { d with mountRoot := some (← Json.optional (Json.string "path string")) }
  | _ => do return { d with httpTimeout := some (← Json.optional Json.unsigned) }

/-- How a description is read. -/
def shape : Json.Shape Draft where
  description := "struct AccessorConfig"
  lengthDescription := "struct AccessorConfig with 5 elements"
  names := ["address", "read_only", "fs_types", "mount_root", "http_timeout_secs"]
  blank := {}
  has := Draft.has
  read := Draft.read
  required := ["address"]
  lenient := false

/-- The description that a draft makes. -/
def ofDraft (d : Draft) : SourceConfig where
  address := d.address.getD ""
  readOnly := d.readOnly.getD true
  fsTypes := d.fsTypes.getD none
  mountRoot := d.mountRoot.getD none
  httpTimeout := d.httpTimeout.getD none

/-- The description that a JSON text holds. -/
def ofJson (s : String) : Except SourceError SourceConfig :=
  match Json.document (Json.record shape) s with
  | .ok d => .ok (ofDraft d)
  | .error fault => .error (.config (.json fault))

/-- A member that is left out if it is not set. -/
def member (name : String) : Option Json.Value → List (String × Json.Value)
  | none => []
  | some value => [(name, value)]

/-- The description as a JSON value, without what is not set. -/
def toValue (c : SourceConfig) : Json.Value :=
  .object ([("address", .text c.address), ("read_only", .bool c.readOnly)] ++
    member "fs_types" (c.fsTypes.map .texts) ++
    member "mount_root" (c.mountRoot.map .text) ++
    member "http_timeout_secs" (c.httpTimeout.map .number))

def toJson (c : SourceConfig) : String := c.toValue.pretty

def options (c : SourceConfig) : SourceOptions where
  readOnly := c.readOnly
  fsTypes := c.fsTypes
  mountRoot := c.mountRoot
  httpTimeout := c.httpTimeout

def build [InternationalNames] (c : SourceConfig) : Except SourceError AnySource :=
  AnySource.create c.address c.options

end SourceConfig

end InstallMedia
