import InstallMedia.Ftp.Fault
import InstallMedia.Http.Fault
import InstallMedia.Json.Fault
import InstallMedia.Mount.Fault
import InstallMedia.Text.Utf8
import InstallMedia.Url.Host

/-!
# Errors of sources

Whatever kind of source is used, its failures are told in one vocabulary.  An error holds its cause;
`SourceError.message` words it.

## Main definitions

* `SourceError` and its causes `ProtocolCause`, `Breach`, `AddressCause`, `ConfigCause`
* `SourceError.ofOpening`: a file that cannot be opened because it is not there is not found
* `FtpFault.error`, `FtpFault.errorFor`, `HttpFault.error`, `HttpFault.errorFor`
-/

namespace InstallMedia

/-- Why a network source failed. -/
inductive ProtocolCause where
  | ftp (fault : FtpFault)
  | http (fault : HttpFault)
  /-- In words of a source's own. -/
  | stated (message : String)

/-- How a source was used against its rules. -/
inductive Breach where
  /-- Writing to a source that is only read. -/
  | readOnly (name : String)
  /-- Writing to a kind of source that cannot be written to. -/
  | cannotWrite (name : String)
  /-- Using a mounted source that is not mounted. -/
  | notMounted (name source : String)
  /-- Using an FTP site without a session. -/
  | noSession (name address : String)
  /-- A base address that names no directory. -/
  | notDirectory (kind address : String)
  /-- An HTTP site that is to be written to. -/
  | mustBeReadOnly (address : String)
  /-- In words of a source's own. -/
  | stated (message : String)
  deriving DecidableEq, Repr

/-- Why a text is no address that can be used. -/
inductive AddressCause where
  | url (fault : UrlFault)
  | encoding (fault : Utf8.Fault)
  | missingHost
  | credentialsStay
  | cannotBeBase
  /-- In words of a source's own. -/
  | stated (message : String)
  deriving DecidableEq, Repr

/-- Why the description of a source cannot be read. -/
inductive ConfigCause where
  | json (fault : Json.Fault)
  /-- In words of a source's own. -/
  | stated (message : String)
  deriving DecidableEq, Repr

/-- A failure of a source. -/
inductive SourceError where
  /-- No candidate could be mounted. -/
  | mountFailure (device : String) (attempts : List (String × MountFault))
  | notFound (name : String)
  | protocol (cause : ProtocolCause)
  | unsupportedScheme (scheme : String)
  | precondition (breach : Breach)
  | invalidAddress (address : String) (cause : AddressCause)
  | config (cause : ConfigCause)
  | mount (fault : MountFault)
  | io (fault : IoFault)

/-! ## Wording -/

def ProtocolCause.message : ProtocolCause → String
  | ftp fault => fault.message
  | http fault => fault.message
  | stated message => message

def Breach.message : Breach → String
  | readOnly name => s!"cannot write {name}: accessor is read-only"
  | cannotWrite name => s!"cannot write {name}: backend does not support writing"
  | notMounted name source =>
    s!"cannot access {name}: <MountingAccessor: {source}> is not started"
  | noSession name address => s!"cannot access {name}: FTP session for {address} is not started"
  | notDirectory kind address => s!"{kind} base address {address} must end with '/'"
  | mustBeReadOnly address => s!"HTTP accessor for {address} must be read-only"
  | stated message => message

def AddressCause.message : AddressCause → String
  | url fault => fault.message
  | encoding fault => fault.message
  | missingHost => "missing host"
  | credentialsStay => "cannot remove credentials"
  | cannotBeBase => "cannot be a base"
  | stated message => message

def ConfigCause.message : ConfigCause → String
  | json fault => fault.message
  | stated message => message

namespace SourceError

/-- The attempts of a mount, in order. -/
def attemptsText (attempts : List (String × MountFault)) : String :=
  String.intercalate ", " (attempts.map fun (fstype, fault) => s!"{fstype}: {fault.message}")

def message : SourceError → String
  | mountFailure device attempts =>
    s!"could not mount {device} as any of [" ++ attemptsText attempts ++ "]"
  | notFound name => s!"not found: {name}"
  | protocol cause => s!"protocol error: {cause.message}"
  | unsupportedScheme scheme => s!"unsupported scheme: {scheme}"
  | precondition breach => s!"precondition violated: {breach.message}"
  | invalidAddress address cause => s!"invalid address {address}: {cause.message}"
  | config cause => s!"invalid accessor config: {cause.message}"
  | mount fault => s!"mount error: {fault.message}"
  | io fault => s!"I/O error: {fault.message}"

/-- Whether an error says that a name is not there. -/
def isNotFound : SourceError → Bool
  | notFound _ => true
  | _ => false

/-- The error of a name that cannot be opened. -/
def ofOpening (name : String) (fault : IoFault) : SourceError :=
  if fault.kind = .notFound then .notFound name else .io fault

end SourceError

def FtpFault.error (fault : FtpFault) : SourceError := .protocol (.ftp fault)

/-- A failed dialogue about a name: that the file is not available means that it is not found. -/
def FtpFault.errorFor (name : String) (fault : FtpFault) : SourceError :=
  if fault.replyCode? = some fileUnavailable then .notFound name else fault.error

def HttpFault.error (fault : HttpFault) : SourceError := .protocol (.http fault)

/-- A failed request for a name: that the server does not know it means that it is not found. -/
def HttpFault.errorFor (name : String) (fault : HttpFault) : SourceError :=
  if fault.status? = some .notFound then .notFound name else fault.error

/-- Refuses to write to a source that is only read. -/
def ensureWritable (readOnly : Bool) (name : String) : Except SourceError Unit :=
  if readOnly then .error (.precondition (.readOnly name)) else .ok ()

end InstallMedia
