import InstallMedia.Address
import InstallMedia.Counted
import InstallMedia.Source.Basic

/-!
# FTP sites

One control connection serves all starts of a site.  A download leaves its reply pending; the next
operation drains it before it says anything else.

## Main definitions

* `FtpSource`, `FtpSource.ofAddress`
* `FtpSource.connect`, `FtpSource.disconnect`: what the first start and the last finish do
* `FtpSource.onIdle`: an operation on the drained connection
* `FtpSource.place`: where a name is listed
-/

namespace InstallMedia

structure FtpSource where
  base : String
  address : Address
  readOnly : Bool
  /-- The control connection, while the site is started. -/
  session : Counted Connection := .idle

namespace FtpSource

/-- The port of servers that name none. -/
def defaultPort : Nat := 21

/-- The source of an address, which must name a directory on a host. -/
def ofAddress [InternationalNames] (address : String) (readOnly : Bool) :
    Except SourceError FtpSource :=
  if address.toList.getLast? ≠ some '/' then
    .error (.precondition (.notDirectory "FTP" address))
  else
    match Address.parse address with
    | .error e => .error e
    | .ok parts =>
      if parts.hostname.isNone then .error (.invalidAddress address .missingHost)
      else .ok { base := address, address := parts, readOnly }

/-- The number of starts without a finish. -/
def startCount (s : FtpSource) : Nat := s.session.count

/-- Whether the reply to a download has not been drained yet. -/
def replyPending (s : FtpSource) : Bool :=
  match s.session with
  | .held c _ => c.state = .awaitingReply
  | .idle => false

def display (s : FtpSource) : String := "<FTPAccessor: " ++ s.base ++ ">"

/-! ## Sessions -/

/-- The dialogue that begins a session: greeting, login, and the directory that names are looked up
in. -/
def opening (a : Address) : Attempt Connection SourceError Unit := do
  Connection.greet.mapError FtpFault.error
  let username ← Attempt.ofExcept a.decodedUsername
  let password ← Attempt.ofExcept a.decodedPassword
  (Connection.login username password).mapError FtpFault.error
  let directory ← Attempt.ofExcept a.decodedDirectory
  if directory ≠ "" then
    (Connection.changeDirectory directory).mapError FtpFault.error

/-- Begins a session.  A connection on which it cannot begin is ended. -/
def connect (a : Address) : Attempt World SourceError Connection := fun w =>
  match World.dial (a.hostname.getD "") (a.port.getD defaultPort) w with
  | (.error fault, w) => (.error fault.error, w)
  | (.ok c, w) =>
    match opening a c with
    | (.ok (), c) => (.ok c, w)
    | (.error e, c) => (.error e, w.hangUp c)

/-- The dialogue that ends a session. -/
def closing : Session Unit := do
  discard Connection.drain
  Connection.quit

/-- Ends a session, whether or not the server agrees. -/
def disconnect : Attempt (Connection × World) SourceError Unit := fun (c, w) =>
  let c := (closing c).2
  (.ok (), c, w.hangUp c)

/-- One start more. -/
def start : Operation FtpSource Unit := fun (s, w) =>
  let (result, session, w) := Counted.acquire (connect s.address) (s.session, w)
  (result.map fun _ => (), { s with session }, w)

/-- One finish. -/
def finish : Operation FtpSource Unit := fun (s, w) =>
  let (result, session, w) := Counted.release disconnect (s.session, w)
  (result.map fun _ => (), { s with session }, w)

/-! ## Operations -/

/-- Runs on the control connection, once it owes no reply; `σ` is what else the operation works
on. -/
def onIdle {σ α : Type} (name : String) (x : Attempt (σ × Connection) SourceError α) :
    Attempt (σ × FtpSource) SourceError α := fun (a, s) =>
  match s.session with
  | .idle => (.error (.precondition (.noSession name s.base)), a, s)
  | .held c others =>
    -- A session from which the pending reply cannot be read is kept as it is.
    match Connection.drain c with
    | (.error fault, c) => (.error fault.error, a, { s with session := .held c others })
    | (.ok _, c) =>
      let (result, a, c) := x (a, c)
      (result, a, { s with session := .held c others })

/-- Runs a dialogue beside which nothing else is worked on. -/
def dialogue {α : Type} (x : Session α) (f : FtpFault → SourceError) :
    Attempt (Unit × Connection) SourceError α :=
  (x.mapError f).on (·.2) fun c _ => ((), c)

/-- An operation on the source beside the world. -/
def beside {α : Type} (x : Attempt (Unit × FtpSource) SourceError α) : Operation FtpSource α :=
  x.on (fun (s, _) => ((), s)) fun (_, s) (_, w) => (s, w)

/-- Opens a name: begins its download. -/
def openFile (name : String) : Operation FtpSource Stream :=
  beside (onIdle name do
    let path ← Attempt.ofExcept (percentDecode name)
    let feed ← dialogue (Connection.download path) (FtpFault.errorFor name)
    return .feed feed)

/-- Where a name is listed: the directory before its last slash, and what follows the slash.  The
directory before a first slash is the root; a name without slashes is in the current directory. -/
def place (name : String) : String × String :=
  match Split.atLast? (· = '/') name.toList with
  | some ([], file) => ("/", String.ofList file)
  | some (directory, file) => (String.ofList directory, String.ofList file)
  | none => ("", name)

/-- Whether a listing has a name, by itself or with its directory. -/
def lists (listing : List String) (name file : String) : Bool :=
  listing.any fun entry => entry = name || entry = file

/-- Whether the listing of its directory has a name. -/
def listed (name : String) : Operation FtpSource Bool :=
  beside (onIdle name do
    let path ← Attempt.ofExcept (percentDecode name)
    let (directory, file) := place path
    let names ← dialogue (Connection.listing directory) FtpFault.error
    return lists names path file)

/-- Uploads a feed under a name. -/
def upload (name : String) : Attempt (Feed × FtpSource) SourceError Unit :=
  onIdle name do
    let path ← Attempt.ofExcept (percentDecode name)
    discard ((Connection.upload path).mapError FtpFault.error)

instance : Source FtpSource where
  readOnly := (·.readOnly)
  openFile := openFile
  has name := fun s =>
    match listed name s with
    | (.ok found, s) => (found, s)
    | (.error _, s) => (false, s)
  store name := fun (stream, s, w) =>
    Source.whenWritable s.readOnly name
      ((upload name).on (fun (stream, s, w) => (stream.contents w.files, s))
        fun (left, s) (stream, _, w) => (stream.advance w.files left, s, w))
      (stream, s, w)
  start := start
  finish := finish
  abandon := fun (s, w) =>
    match s.session with
    | .held c _ => w.hangUp c
    | .idle => w

end FtpSource

end InstallMedia
