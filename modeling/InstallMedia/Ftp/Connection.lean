import InstallMedia.Attempt
import InstallMedia.Ftp.Listing
import InstallMedia.Ftp.Passive
import InstallMedia.Stream.Copy

/-!
# Control connections

A control connection carries commands to a server and replies back.  What the server does is a
function of all that it has been told: the transcript.  A download hands its data to the caller and
leaves the reply to it unread; until that reply has been drained nothing else is sent.

## Main definitions

* `FtpEvent`, `Transcript`, `FtpServer`: what a server is told, and what it does
* `Connection`, `Session`: a live connection, and a dialogue on it
* `Connection.greet`, `login`, `changeDirectory`, `download`, `listing`, `upload`, `drain`, `quit`
-/

namespace InstallMedia

/-- What a server is told. -/
inductive FtpEvent where
  /-- Bytes on the control connection. -/
  | sent (bytes : Bytes)
  /-- A data connection is asked for. -/
  | dialled (host : String) (port : Nat)
  /-- A data connection ends after these bytes. -/
  | uploaded (bytes : Bytes)
  deriving DecidableEq, Repr

/-- All that a server has been told, in order. -/
abbrev Transcript := List FtpEvent

def FtpEvent.isCommand : FtpEvent → Bool
  | .sent _ => true
  | _ => false

/-- The number of commands that a server has been sent. -/
def Transcript.commands (t : Transcript) : Nat := t.countP FtpEvent.isCommand

/-- What a server does, given all that it has been told. -/
structure FtpServer where
  /-- The bytes that it sends on the control connection once the last event has happened. -/
  respond : Transcript → Bytes
  /-- The fault of a reader for whom it has no bytes left; without one the connection ends. -/
  silence : Transcript → Option IoFault
  /-- The fault of sending it more on the control connection. -/
  blocked : Transcript → Option IoFault
  /-- The fault of the data connection that was asked for last. -/
  refused : Transcript → Option IoFault
  /-- What it sends on the data connection. -/
  download : Transcript → Feed
  /-- The fault of sending it more on the data connection after these bytes. -/
  clogged : Transcript → Bytes → Option IoFault
  /-- The number of bytes that it takes at once of those offered after these.  A number greater than
  theirs is all of them. -/
  accepts : Transcript → Bytes → Bytes → Nat

/-- Whether the reply to a transfer is still to be read. -/
inductive ReplyState where
  | idle
  | awaitingReply
  deriving DecidableEq, Repr

/-- A live control connection. -/
structure Connection where
  server : FtpServer
  /-- The host that the connection goes to. -/
  peer : String
  /-- What the server has been told. -/
  transcript : Transcript
  /-- What the server has sent and nobody has read. -/
  unread : Bytes
  /-- Every reply that was read, with the number of commands sent before it: each is taken for the
  answer to the last of them, and those before the first command for the greeting. -/
  heard : List (Nat × FtpReply) := []
  state : ReplyState

/-- A dialogue on a control connection. -/
abbrev Session (α : Type) := Attempt Connection FtpFault α

namespace Connection

/-- A new connection: the server's greeting is unread. -/
def fresh (server : FtpServer) (peer : String) : Connection :=
  { server, peer, transcript := [], unread := server.respond [], state := .idle }

/-- The connection after one event more. -/
def tell (c : Connection) (event : FtpEvent) : Connection :=
  { c with
    transcript := c.transcript ++ [event]
    unread := c.unread ++ c.server.respond (c.transcript ++ [event]) }

/-! ## Commands and replies -/

def verb (command : String) : String :=
  String.ofList (command.toList.takeWhile (· ≠ ' '))

def lineEnd : Bytes := [0x0D, 0x0A]

/-- Sends a command.  While a reply is pending nothing is sent. -/
def send (command : String) : Session Unit := fun c =>
  if c.state = .awaitingReply then (.error (.replyPending (verb command)), c)
  else
    match c.server.blocked c.transcript with
    | some cause => (.error (.io cause), c)
    | none => (.ok (), c.tell (.sent (Utf8.encode command ++ lineEnd)))

def readReply : Session FtpReply := fun c =>
  match FtpReply.read (c.server.silence c.transcript) c.unread with
  | (.ok reply, rest) =>
    (.ok reply, { c with
      unread := rest
      heard := c.heard ++ [(Transcript.commands c.transcript, reply)] })
  | (.error fault, rest) => (.error fault, { c with unread := rest })

/-- The fault of a reply that is not the one needed. -/
def unexpected (command : String) (reply : FtpReply) : FtpFault :=
  .unexpectedReply (verb command) reply.code reply.text

/-- Refuses a reply of another group than the one needed. -/
def check (command : String) (reply : FtpReply) (group : Nat) : Except FtpFault Unit :=
  if reply.group = group then .ok () else .error (unexpected command reply)

/-- Sends a command and reads the reply to it. -/
def command (line : String) : Session FtpReply := do
  send line
  readReply

/-- Sends a command and needs a reply of some group. -/
def expect (line : String) (group : Nat) : Session FtpReply := do
  let reply ← command line
  Attempt.ofExcept (check line reply group)
  return reply

/-! ## Beginning and end -/

/-- Reads replies until one that is not preliminary: at most `fuel` of them. -/
def readGreeting : (fuel : Nat) → Session FtpReply
  | 0 => readReply
  | fuel + 1 => do
    let reply ← readReply
    if reply.group = 1 then readGreeting fuel else return reply

/-- Reads the greeting, before which a server may announce a delay. -/
def greet : Session Unit := do
  let c ← Attempt.get
  let greeting ← readGreeting c.unread.length
  Attempt.ofExcept (check "connect" greeting 2)

/-- The user who needs no account. -/
def anonymousUser : String := "anonymous"

def anonymousPassword : String := "anonymous@"

/-- The password to send for a user. -/
def passwordFor (username : String) : Option String → String
  | some password => password
  | none => if username = anonymousUser then anonymousPassword else ""

/-- Logs in, without an account if no user is given. -/
def login (username password : Option String) : Session Unit := do
  let username := username.getD anonymousUser
  let reply ← command ("USER " ++ username)
  if reply.group = 2 then return
  else if reply.group = 3 then
    let reply ← command ("PASS " ++ passwordFor username password)
    Attempt.ofExcept (check "PASS" reply 2)
  else Attempt.fail (unexpected "USER" reply)

def changeDirectory (directory : String) : Session Unit := do
  discard (expect ("CWD " ++ directory) 2)

/-- Reads the reply to a download, if it has not been read yet. -/
def drain : Session (Option FtpReply) := fun c =>
  if c.state = .idle then (.ok none, c)
  else
    match readReply c with
    | (.ok reply, c) => (.ok (some reply), { c with state := .idle })
    -- A reply that could not be read stays pending.
    | (.error fault, c) => (.error fault, c)

def quit : Session Unit := do
  discard (expect "QUIT" 2)

/-! ## Transfers -/

/-- Asks for a data connection to a port of the server's host. -/
def dial (port : Nat) : Session Unit := fun c =>
  let c := c.tell (.dialled c.peer port)
  match c.server.refused c.transcript with
  | some cause => (.error (.io cause), c)
  | none => (.ok (), c)

/-- Opens a data connection and sends the command that uses it.  The host that the server names is
not used. -/
def openData (line : String) : Session Unit := do
  let reply ← expect "PASV" 2
  let port ← Attempt.ofExcept (Passive.port reply)
  dial port
  let reply ← command line
  if reply.group = 1 then return else Attempt.fail (unexpected line reply)

/-- Begins a download and gives its data.  The reply to it is left pending. -/
def download (path : String) : Session Feed := do
  discard (expect "TYPE I" 2)
  openData ("RETR " ++ path)
  -- The reply comes after the data, which the caller has yet to read.
  Attempt.modify fun c => { c with state := .awaitingReply }
  let c ← Attempt.get
  return c.server.download c.transcript

/-- The command that lists a directory, the current one if none is named. -/
def listingCommand (directory : String) : String :=
  if directory = "" then "NLST" else "NLST " ++ directory

/-- Lists the names in a directory. -/
def listing (directory : String) : Session (List String) := do
  discard (expect "TYPE A" 2)
  openData (listingCommand directory)
  let c ← Attempt.get
  -- Names that cannot be read end the dialogue here, before the reply to the transfer is read.
  let names ← Attempt.ofExcept
    ((Listing.names (c.server.download c.transcript)).mapError FtpFault.io)
  let reply ← readReply
  Attempt.ofExcept (check "NLST" reply 2)
  return names

/-- The data connection as a sink that keeps what it has sent.  One write may send only a first part
of what it is given. -/
def uplink (server : FtpServer) (transcript : Transcript) : Sink Bytes where
  write sent bytes :=
    let accepted := bytes.take (server.accepts transcript sent bytes)
    match server.clogged transcript sent with
    | none => (.ok accepted.length, sent ++ accepted)
    | some cause =>
      -- An interrupted write is tried again, with the same bytes.
      if cause.isInterrupted then (.ok accepted.length, sent ++ accepted) else (.error cause, sent)
  flush sent := (.ok (), sent)
  patience _ := 0
  patience_lt s bytes cause s' h hi := by
    split at h
    · simp at h
    · split at h
      · simp at h
      · rename_i hc
        obtain ⟨rfl, -⟩ : _ = cause ∧ _ := by simpa using h
        exact absurd hi hc

/-- Uploads a feed under a name and gives the number of bytes sent. -/
def upload (name : String) : Attempt (Feed × Connection) FtpFault Nat := do
  let onConnection {α : Type} (x : Session α) : Attempt (Feed × Connection) FtpFault α :=
    x.on (·.2) fun c s => (s.1, c)
  discard (onConnection (expect "TYPE I" 2))
  onConnection (openData ("STOR " ++ name))
  let (feed, c) ← Attempt.get
  -- The data connection ends with the copy, even if that failed.
  let result := copy (uplink c.server c.transcript) feed []
  Attempt.set (result.left, c.tell (.uploaded result.sink))
  let sent ← Attempt.ofExcept (result.result.mapError FtpFault.io)
  let reply ← onConnection readReply
  onConnection (Attempt.ofExcept (check "STOR" reply 2))
  return sent

end Connection

end InstallMedia
