import InstallMedia.Fault

/-!
# Failed FTP dialogues

## Main definitions

* `FtpFault`: why a dialogue with a server went no further
* `FtpFault.message`, `FtpFault.replyCode?`
-/

namespace InstallMedia

/-- Why a dialogue with a server went no further. -/
inductive FtpFault where
  /-- A connection failed. -/
  | io (cause : IoFault)
  /-- The server gave a reply of another class than the one needed. -/
  | unexpectedReply (command : String) (code : Nat) (text : String)
  /-- A line is no reply. -/
  | malformedReply (line : String)
  /-- The reply to a transfer has not been read yet. -/
  | replyPending (command : String)
  /-- The server ended the connection. -/
  | closed
  deriving DecidableEq, Repr

namespace FtpFault

def message : FtpFault → String
  | io cause => s!"FTP I/O error: {cause.message}"
  | unexpectedReply command code text => s!"unexpected reply to {command}: {code} {text}"
  | malformedReply line => s!"malformed reply: {line}"
  | replyPending command => s!"cannot send {command}: a transfer reply is still pending"
  | closed => "connection closed by server"

/-- The code of the reply that was not the one needed. -/
def replyCode? : FtpFault → Option Nat
  | unexpectedReply _ code _ => some code
  | _ => none

/-- The code of the reply that a file is not available. -/
def fileUnavailable : Nat := 550

end FtpFault

end InstallMedia
