import InstallMedia.Address
import InstallMedia.Source.Mounted

/-!
# Devices, images and exports

Devices and images are mounted as one of several filesystem types, NFS exports as one.  Both are
mounted sources that are named by addresses.

## Main definitions

* `DeviceSource`, `DeviceSource.ofAddress`
* `NfsSource`, `NfsSource.ofAddress`
-/

namespace InstallMedia

namespace MountedSource

variable {α : Type}

/-- Runs an operation of a mounted source on a source that has one inside. -/
def within {β : Type} (view : α → MountedSource) (put : MountedSource → α → α)
    (x : Operation MountedSource β) : Operation α β :=
  x.on (fun (a, w) => (view a, w)) fun (m, w) (a, _) => (put m a, w)

/-- Stores into the mounted source inside a source. -/
def storeWithin (view : α → MountedSource) (put : MountedSource → α → α) (name : String) :
    Attempt (Stream × α × World) SourceError Unit :=
  (Source.store name : Attempt (Stream × MountedSource × World) SourceError Unit).on
    (fun (stream, a, w) => (stream, view a, w)) fun (stream, m, w) (_, a, _) => (stream, put m a, w)

end MountedSource

/-- A device or an image. -/
structure DeviceSource where
  device : String
  inner : MountedSource

namespace DeviceSource

/-- The filesystem types that are tried unless others are named. -/
def defaultTypes : List String := ["iso9660", "vfat", "ext3"]

def options (readOnly : Bool) : List String :=
  if readOnly then [MountCandidate.readOnlyOption] else []

/-- The source of an address, with the filesystem types to try. -/
def ofAddress (address : String) (readOnly : Bool) (types : Option (List String)) : DeviceSource :=
  let device := Address.stripScheme "dev" address
  { device
    inner :=
      { device, readOnly
        candidates := (types.getD defaultTypes).map (⟨·, options readOnly⟩) } }

def display (s : DeviceSource) : String := "<DeviceAccessor: " ++ s.device ++ ">"

def setInner (m : MountedSource) (s : DeviceSource) : DeviceSource := { s with inner := m }

instance : Source DeviceSource where
  readOnly s := s.inner.readOnly
  openFile name := MountedSource.within inner setInner (Source.openFile name)
  store name := MountedSource.storeWithin inner setInner name
  start := MountedSource.within inner setInner Source.start
  finish := MountedSource.within inner setInner Source.finish
  abandon s := Source.abandon (s.1.inner, s.2)

end DeviceSource

/-- An NFS export. -/
structure NfsSource where
  path : String
  inner : MountedSource

namespace NfsSource

def fstype : String := "nfs"

def options (readOnly : Bool) : List String :=
  "tcp" :: if readOnly then [MountCandidate.readOnlyOption] else []

/-- The source of an address. -/
def ofAddress (address : String) (readOnly : Bool) : NfsSource :=
  let path := Address.stripScheme "nfs" address
  { path
    inner := { device := path, readOnly, candidates := [⟨fstype, options readOnly⟩] } }

def display (s : NfsSource) : String := "<NFSAccessor: " ++ s.path ++ ">"

def setInner (m : MountedSource) (s : NfsSource) : NfsSource := { s with inner := m }

instance : Source NfsSource where
  readOnly s := s.inner.readOnly
  openFile name := MountedSource.within inner setInner (Source.openFile name)
  store name := MountedSource.storeWithin inner setInner name
  start := MountedSource.within inner setInner Source.start
  finish := MountedSource.within inner setInner Source.finish
  abandon s := Source.abandon (s.1.inner, s.2)

end NfsSource

end InstallMedia
