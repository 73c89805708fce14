import InstallMedia.CommandLine.Arguments
import InstallMedia.Source.Any

/-!
# Running a command

A run makes the source, starts it, does what is to be done, and finishes the source whether or not
that succeeded.

## Main definitions

* `CommandFault`: why a run failed
* `Command.execute`: what a command does with a started source
* `Command.bracketed`: the same between a start and a finish
* `Arguments.run`: a whole run
-/

namespace InstallMedia

/-- Why a run failed. -/
inductive CommandFault where
  | source (error : SourceError)
  /-- The local file cannot be opened or made. -/
  | localFile (path : String) (cause : IoFault)
  /-- Copying or writing failed. -/
  | output (cause : IoFault)

def CommandFault.message : CommandFault → String
  | source error => error.message
  | localFile path cause => s!"{path}: {cause.message}"
  | output cause => s!"I/O error: {cause.message}"

namespace Command

variable {σ α : Type} [Source α]

/-- Writes texts one after the other. -/
def writeTexts (stdout : Sink σ) : List String → σ → Except IoFault Unit × σ
  | [], out => (.ok (), out)
  | text :: rest, out =>
    match stdout.writeAll (Utf8.encode text) out with
    | (.ok (), out) => writeTexts stdout rest out
    | (.error cause, out) => (.error cause, out)

/-- What a probe says. -/
def finding (name : String) (found : Bool) : List String :=
  [name, ": ", if found then "present" else "missing", "\n"]

/-- Says whether a name is there. -/
def executeProbe (stdout : Sink σ) (name : String) :
    Attempt (σ × α × World) CommandFault Bool := fun (out, s, w) =>
  let (found, s, w) := Source.has name (s, w)
  let (written, out) := writeTexts stdout (finding name found) out
  ((written.mapError .output).map fun _ => found, out, s, w)

/-- Copies a name to a local file or to the standard output.  The file is made after the name has
been opened and before it is read. -/
def executeFetch (stdout : Sink σ) (name : String) (output : Option String) :
    Attempt (σ × α × World) CommandFault Bool := fun (out, s, w) =>
  match Source.openFile name (s, w) with
  | (.error e, s, w) => (.error (.source e), out, s, w)
  | (.ok stream, s, w) =>
    match output with
    | none =>
      let c := copy stdout (stream.contents w.files) out
      ((c.result.mapError .output).map fun _ => true, c.sink, s, w)
    | some path =>
      match w.files.createFile path with
      | .error cause => (.error (.localFile path cause), out, s, w)
      | .ok (id, files) =>
        let c := copy (Source.fileSink id) (stream.contents files) files
        ((c.result.mapError .output).map fun _ => true, out, s, { w with files := c.sink })

/-- Copies a local file to a name. -/
def executeStore (name localFile : String) : Attempt (σ × α × World) CommandFault Bool :=
  fun (out, s, w) =>
    match w.files.openFile localFile with
    | .error cause => (.error (.localFile localFile cause), out, s, w)
    | .ok file =>
      let (stored, _, s, w) := Source.store name (.file file, s, w)
      ((stored.mapError .source).map fun _ => true, out, s, w)

/-- Does what is to be done with a started source. -/
def execute (stdout : Sink σ) : Command → Attempt (σ × α × World) CommandFault Bool
  | probe _ name => executeProbe stdout name
  | fetch _ name output => executeFetch stdout name output
  | store _ name localFile => executeStore name localFile

/-- Does what is to be done between a start and a finish of the source.  A source that has been
started is finished once. -/
def bracketed (stdout : Sink σ) (c : Command) : Attempt (σ × α × World) CommandFault Bool :=
  fun (out, s, w) =>
    match Source.start (s, w) with
    | (.error e, s, w) => (.error (.source e), out, s, w)
    | (.ok (), s, w) =>
      -- The source is finished whatever has become of the command, whose fault comes first.
      let (result, out, s, w) := c.execute stdout (out, s, w)
      let (finished, s, w) := Source.finish (s, w)
      (result.bind fun found => (finished.mapError .source).map fun _ => found, out, s, w)

theorem bracketed_of_started {stdout : Sink σ} {c : Command} {out : σ} {s s' : α} {w w' : World}
    (h : Source.start (s, w) = (.ok (), s', w')) :
    c.bracketed stdout (out, s, w) =
      let (result, out, now) := c.execute stdout (out, s', w')
      let (finished, now) := Source.finish now
      (result.bind fun found => (finished.mapError .source).map fun _ => found, out, now) := by
  simp only [bracketed, h]

theorem bracketed_of_not_started {stdout : Sink σ} {c : Command} {out : σ} {s s' : α}
    {w w' : World} {e : SourceError} (h : Source.start (s, w) = (.error e, s', w')) :
    c.bracketed stdout (out, s, w) = (.error (.source e), out, s', w') := by
  simp only [bracketed, h]

end Command

/-- A whole run: whether what was looked for is there.  Every source is given up at the end. -/
def Arguments.run [InternationalNames] {σ : Type} (stdout : Sink σ) (a : Arguments) :
    Attempt (σ × World) CommandFault Bool := fun (out, w) =>
  match AnySource.create a.command.address a.options with
  | .error e => (.error (.source e), out, w)
  | .ok s =>
    let (result, out, s, w) := a.command.bracketed stdout (out, s, w)
    (result, out, Source.abandon (s, w))

end InstallMedia
