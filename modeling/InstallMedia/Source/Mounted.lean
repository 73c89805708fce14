import InstallMedia.Counted
import InstallMedia.Mount.Candidate
import InstallMedia.Source.Basic

/-!
# Mounted sources

A mounted source is a filesystem that is mounted on a temporary directory while it is started.  The
first start makes the directory and tries the candidates in order, until one can be mounted; the
last finish unmounts it and takes the directory away.

## Main definitions

* `MountedSource`
* `MountedSource.probe`: trying candidates in order
* `MountedSource.mountFirst`, `MountedSource.unmount`: what the first start and the last finish do
-/

namespace InstallMedia

/-- A filesystem that is mounted while it is started. -/
structure MountedSource where
  device : String
  candidates : List MountCandidate
  readOnly : Bool
  /-- A mounter of its own. -/
  mounter : Option Mounter := none
  /-- The directory for mount points, unless it is the world's. -/
  mountRoot : Option String := none
  /-- The mount point, while it is mounted. -/
  state : Counted String := .idle

namespace MountedSource

/-- The stem of the names of mount points. -/
def stem : String := "media-"

/-- The mount point, while it is mounted. -/
def location? (s : MountedSource) : Option String := s.state.resource?

/-- The number of starts without a finish. -/
def startCount (s : MountedSource) : Nat := s.state.count

/-- The source with a mounter of its own. -/
def withMounter (s : MountedSource) (mounter : Mounter) : MountedSource :=
  { s with mounter := some mounter }

/-- The source with a directory of its own for mount points. -/
def withMountRoot (s : MountedSource) (root : String) : MountedSource :=
  { s with mountRoot := some root }

def display (s : MountedSource) : String := "<MountingAccessor: " ++ s.device ++ ">"

/-- How trying candidates went. -/
structure Probe where
  /-- The candidates, as they were tried. -/
  candidates : List MountCandidate
  /-- Whether one was mounted. -/
  mounted : Bool
  /-- The filesystem types that were not, and why. -/
  failures : List (String × MountFault)
  world : World

/-- Tries candidates in order, until one can be mounted. -/
def probe (mounter : Option Mounter) (device target : String) :
    List MountCandidate → World → Probe
  | [], w => ⟨[], false, [], w⟩
  | c :: rest, w =>
    let c := c.prepared
    match World.mount mounter ⟨device, target, c.fstype, c.options⟩ w with
    | (.ok (), w) => ⟨c :: rest, true, [], w⟩
    | (.error fault, w) =>
      -- Candidates after this one are tried on the same mount point.
      let p := probe mounter device target rest w
      { p with candidates := c :: p.candidates, failures := (c.fstype, fault) :: p.failures }

/-- Makes a mount point and mounts the first candidate that can be mounted there.  If there is none,
the mount point is taken away. -/
def mountFirst (mounter : Option Mounter) (device root : String) :
    Attempt (List MountCandidate × World) SourceError String := fun (candidates, w) =>
  match World.makeTemporary root stem w with
  | (.error cause, w) => (.error (.io cause), candidates, w)
  | (.ok target, w) =>
    let p := probe mounter device target candidates w
    -- The candidates are kept as they were tried, mounted or not.
    if p.mounted then (.ok target, p.candidates, p.world)
    else
      (.error (.mountFailure device p.failures), p.candidates,
        p.world.tryRemoveDirectory target)

/-- Unmounts a mount point and takes it away. -/
def unmount (mounter : Option Mounter) : Attempt (String × World) SourceError Unit :=
  fun (target, w) =>
    match World.unmount mounter target w with
    | (.ok (), w) => (.ok (), target, w.tryRemoveDirectory target)
    | (.error fault, w) => (.error (.mount fault), target, w)

/-- One start more. -/
def start : Operation MountedSource Unit := fun (s, w) =>
  let root := s.mountRoot.getD w.temporaryDirectory
  let (result, state, candidates, w) :=
    Counted.acquire (mountFirst s.mounter s.device root) (s.state, s.candidates, w)
  (result.map fun _ => (), { s with state, candidates }, w)

/-- One finish. -/
def finish : Operation MountedSource Unit := fun (s, w) =>
  let (result, state, w) := Counted.release (unmount s.mounter) (s.state, w)
  (result.map fun _ => (), { s with state }, w)

/-- The mount point at which a name is used. -/
def locate (s : MountedSource) (name : String) : Except SourceError String :=
  match s.location? with
  | some location => .ok location
  | none => .error (.precondition (.notMounted name s.device))

/-- Finishes until nothing is mounted or unmounting fails: at most `rounds` times. -/
def finishAll : (rounds : Nat) → MountedSource × World → MountedSource × World
  | 0, s => s
  | rounds + 1, s =>
    match finish s with
    | (.ok (), s) => if s.1.state.isHeld then finishAll rounds s else s
    | (.error _, s) => s

instance : Source MountedSource where
  readOnly := (·.readOnly)
  openFile name := fun (s, w) =>
    match s.locate name with
    | .error e => (.error e, s, w)
    | .ok location => Source.openIn location name (s, w)
  store name := fun (stream, s, w) =>
    Source.whenWritable s.readOnly name (fun x =>
      match s.locate name with
      | .error e => (.error e, x)
      | .ok location => Source.storeIn location name x) (stream, s, w)
  start := start
  finish := finish
  abandon s := (finishAll s.1.startCount s).2

end MountedSource

end InstallMedia
