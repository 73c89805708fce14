import InstallMedia.Error
import InstallMedia.World

/-!
# Sources

A source of installation media is reached in the same way whatever it is: it is started, names are
opened and looked for, files are stored, and it is finished.  Starts and finishes come in pairs that
may nest; only the outermost pair takes and gives back what the source needs.

## Main definitions

* `Source`: what every source can do, with what a source does that has nothing special to do
* `Operation`: an operation on a source in the world
* `Source.openIn`, `Source.storeIn`: opening and storing below a directory
-/

namespace InstallMedia

/-- An operation on a source in the world. -/
abbrev Operation (α β : Type) := Attempt (α × World) SourceError β

/-- What every source of installation media can do. -/
class Source (α : Type) where
  /-- Whether the source is only read. -/
  readOnly : α → Bool
  /-- Opens a name for reading. -/
  openFile : String → Operation α Stream
  /-- Whether a name can be opened; every failure counts as no. -/
  has : String → α × World → Bool × α × World := fun name s =>
    let opened := openFile name s
    (opened.1.isOk, opened.2)
  /-- Copies a stream to a name. -/
  store : String → Attempt (Stream × α × World) SourceError Unit := fun name =>
    Attempt.fail (.precondition (.cannotWrite name))
  /-- Takes what the source needs. -/
  start : Operation α Unit := pure ()
  /-- Gives it back. -/
  finish : Operation α Unit := pure ()
  /-- Whether the medium can be ejected. -/
  canEject : α → Bool := fun _ => false
  /-- Gives the source up, with all that it holds. -/
  abandon : α × World → World := (·.2)

namespace Source

/-- Opens a path below a directory. -/
def openIn {α : Type} (directory name : String) : Operation α Stream := fun (a, w) =>
  match w.files.openFile (FilePath.join directory name) with
  | .ok file => (.ok (.file file), a, w)
  | .error cause => (.error (.ofOpening name cause), a, w)

/-- The file being written as a sink. -/
def fileSink (id : FileId) : Sink FileTree where
  write files bytes := (.ok bytes.length, files.append id bytes)
  flush files := (.ok (), files)
  patience _ := 0
  patience_lt := by simp

/-- Copies a stream to a path below a directory.  The file is made before the stream is read, so a
stream that reads the same file finds it empty. -/
def storeIn {α : Type} (directory name : String) : Attempt (Stream × α × World) SourceError Unit :=
  fun (stream, a, w) =>
    match w.files.createFile (FilePath.join directory name) with
    | .error cause => (.error (.ofOpening name cause), stream, a, w)
    | .ok (id, files) =>
      -- What was written before a fault stays in the file.
      let result := copy (fileSink id) (stream.contents files) files
      (result.result.map (fun _ => ()) |>.mapError .io,
        stream.advance files result.left, a, { w with files := result.sink })

/-- Refuses to write to a source that is only read. -/
def whenWritable {σ : Type} (readOnly : Bool) (name : String)
    (x : Attempt σ SourceError Unit) : Attempt σ SourceError Unit := do
  Attempt.ofExcept (ensureWritable readOnly name)
  x

end Source

end InstallMedia
