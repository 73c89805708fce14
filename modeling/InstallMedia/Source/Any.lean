import InstallMedia.Scheme
import InstallMedia.Source.Device
import InstallMedia.Source.Directory
import InstallMedia.Source.Ftp
import InstallMedia.Source.Http
import InstallMedia.Source.Options

/-!
# Sources of any kind

The scheme of an address says what kind of source it names.

## Main definitions

* `AnySource`: a source of any kind that an address can name
* `AnySource.create`: the source of an address
-/

namespace InstallMedia

/-- A source of any kind that an address can name. -/
inductive AnySource where
  | nfs (s : NfsSource)
  | http (s : HttpSource)
  | ftp (s : FtpSource)
  | file (s : FileSource)
  | device (s : DeviceSource)

namespace AnySource

variable [InternationalNames]

/-! ## Making sources -/

/-- A mounted source with what the options say about mounting. -/
def configure (options : SourceOptions) (m : MountedSource) : MountedSource :=
  { m with
    mounter := options.mounter.or m.mounter
    mountRoot := options.mountRoot.or m.mountRoot }

/-- The source of an address of a known scheme. -/
def createFor (scheme : Scheme) (address : String) (options : SourceOptions) :
    Except SourceError AnySource :=
  match scheme with
  | .nfs =>
    let s := NfsSource.ofAddress address options.readOnly
    .ok (.nfs { s with inner := configure options s.inner })
  | .dev =>
    let s := DeviceSource.ofAddress address options.readOnly options.fsTypes
    .ok (.device { s with inner := configure options s.inner })
  | .http | .https => (HttpSource.ofAddress address options.readOnly).map .http
  | .ftp => (FtpSource.ofAddress address options.readOnly).map .ftp
  | .file => (FileSource.ofAddress address options.readOnly).map .file

/-- The source of an address. -/
def create (address : String) (options : SourceOptions) : Except SourceError AnySource := do
  createFor (← Scheme.ofAddress address) address options

/-- The mounted source inside a source, if it has one. -/
def mounted? : AnySource → Option MountedSource
  | nfs s => some s.inner
  | device s => some s.inner
  | _ => none

/-- The source with a mounter of its own, if it mounts. -/
def withMounter (mounter : Mounter) : AnySource → AnySource
  | nfs s => .nfs { s with inner := s.inner.withMounter mounter }
  | device s => .device { s with inner := s.inner.withMounter mounter }
  | s => s

def display : AnySource → String
  | nfs s => s.display
  | http s => s.display
  | ftp s => s.display
  | file s => s.display
  | device s => s.display

/-! ## Using sources -/

/-- Runs an operation of the kind of source that it is. -/
def dispatch {β : Type} (x : ∀ {α : Type}, [Source α] → Operation α β) : Operation AnySource β
  | (nfs s, w) => let (r, s, w) := x (s, w); (r, .nfs s, w)
  | (http s, w) => let (r, s, w) := x (s, w); (r, .http s, w)
  | (ftp s, w) => let (r, s, w) := x (s, w); (r, .ftp s, w)
  | (file s, w) => let (r, s, w) := x (s, w); (r, .file s, w)
  | (device s, w) => let (r, s, w) := x (s, w); (r, .device s, w)

/-- Looks for a name in the kind of source that it is. -/
def has (name : String) : AnySource × World → Bool × AnySource × World
  | (nfs s, w) => let (r, s, w) := Source.has name (s, w); (r, .nfs s, w)
  | (http s, w) => let (r, s, w) := Source.has name (s, w); (r, .http s, w)
  | (ftp s, w) => let (r, s, w) := Source.has name (s, w); (r, .ftp s, w)
  | (file s, w) => let (r, s, w) := Source.has name (s, w); (r, .file s, w)
  | (device s, w) => let (r, s, w) := Source.has name (s, w); (r, .device s, w)

/-- Stores into the kind of source that it is. -/
def store (name : String) : Attempt (Stream × AnySource × World) SourceError Unit
  | (x, nfs s, w) => let (r, x, s, w) := Source.store name (x, s, w); (r, x, .nfs s, w)
  | (x, http s, w) => let (r, x, s, w) := Source.store name (x, s, w); (r, x, .http s, w)
  | (x, ftp s, w) => let (r, x, s, w) := Source.store name (x, s, w); (r, x, .ftp s, w)
  | (x, file s, w) => let (r, x, s, w) := Source.store name (x, s, w); (r, x, .file s, w)
  | (x, device s, w) => let (r, x, s, w) := Source.store name (x, s, w); (r, x, .device s, w)

/-- What holds of the kind of source that it is. -/
def property (p : ∀ {α : Type}, [Source α] → α → Bool) : AnySource → Bool
  | nfs s => p s
  | http s => p s
  | ftp s => p s
  | file s => p s
  | device s => p s

/-- Gives up the kind of source that it is. -/
def abandon : AnySource × World → World
  | (nfs s, w) => Source.abandon (s, w)
  | (http s, w) => Source.abandon (s, w)
  | (ftp s, w) => Source.abandon (s, w)
  | (file s, w) => Source.abandon (s, w)
  | (device s, w) => Source.abandon (s, w)

instance : Source AnySource where
  readOnly := property Source.readOnly
  openFile name := dispatch (Source.openFile name)
  has := has
  store := store
  start := dispatch Source.start
  finish := dispatch Source.finish
  canEject := property Source.canEject
  abandon := abandon

end AnySource

end InstallMedia
