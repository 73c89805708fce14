import InstallMedia.Ftp.Fault
import InstallMedia.Text.Lines
import InstallMedia.Text.Split

/-!
# Replies of FTP servers

A reply begins with a line of three digits, its code.  A hyphen after them says that more lines
follow; the reply then ends with the first line that has the code followed by a blank, or the code
alone.

## Main definitions

* `FtpReply`, `FtpReply.group`
* `FtpReply.opening`: the code of a line, and whether the reply goes on
* `FtpReply.read`: the first reply of the bytes that a server has sent
-/

namespace InstallMedia

structure FtpReply where
  code : Nat
  text : String
  deriving DecidableEq, Repr

namespace FtpReply

/-- The hundreds of a code, which say whether the command succeeded. -/
def group (reply : FtpReply) : Nat := reply.code / 100

def digitValue (c : Char) : Nat := c.toNat - 0x30

/-- The code with which a line begins, and what follows it. -/
def code? : List Char → Option (Nat × List Char)
  | a :: b :: c :: rest =>
    if a.isDigit && b.isDigit && c.isDigit then
      some ((digitValue a * 10 + digitValue b) * 10 + digitValue c, rest)
    else none
  | _ => none

/-- The code of the first line of a reply, and whether more lines follow. -/
def opening (line : List Char) : Except FtpFault (Nat × Bool) :=
  match code? line with
  | some (code, []) => .ok (code, false)
  | some (code, c :: _) =>
    if c = ' ' then .ok (code, false)
    else if c = '-' then .ok (code, true)
    else .error (.malformedReply (String.ofList line))
  | none => .error (.malformedReply (String.ofList line))

/-- What follows the first `n` bytes of a line, if they are whole characters. -/
def afterBytes? : (n : Nat) → List Char → Option (List Char)
  | 0, cs => some cs
  | _ + 1, [] => none
  | n + 1, c :: rest =>
    -- A cut inside a character leaves nothing.
    let size := (Utf8.encodeChar c).length
    if size ≤ n + 1 then afterBytes? (n + 1 - size) rest else none

/-- The text of a line after its code and the character that follows. -/
def lineText (line : List Char) : List Char := (afterBytes? 4 line).getD []

/-- The digits of a code, without leading zeros. -/
def codeText (code : Nat) : List Char := Nat.toDigits 10 code

/-- Whether a line is the last of a reply with this code. -/
def isLast (code : Nat) (line : List Char) : Bool :=
  (Split.strip? (codeText code ++ [' ']) line).isSome || line = codeText code

/-- The characters of a line, without its end. -/
def lineChars (raw : Bytes) : List Char :=
  Split.trimEnd (fun c => c = '\r' || c = '\n') (Utf8.decodeLossyFrom 0 raw)

/-- The fault of a reader for whom no line is left, with the fault of the connection if it has
one. -/
def noLine (ending : Option IoFault) : FtpFault :=
  match ending with
  | none => .closed
  | some cause => .io cause

/-- The next line, and the lines after it.  A line that is cut off by a fault is not seen. -/
def nextLine (ending : Option IoFault) : List Bytes → Except FtpFault (List Char) × List Bytes
  | [] => (.error (noLine ending), [])
  | raw :: rest =>
    -- At the mere end of the connection a line without its end still counts.
    if ending.isSome && !Lines.isComplete raw then (.error (noLine ending), [])
    else (.ok (lineChars raw), rest)

/-- Reads the lines of a reply after its first one. -/
def readMore (ending : Option IoFault) (code : Nat) (text : List Char) :
    List Bytes → Except FtpFault (List Char) × List Bytes
  | [] => (.error (noLine ending), [])
  | raw :: rest =>
    if ending.isSome && !Lines.isComplete raw then (.error (noLine ending), [])
    else
      let line := lineChars raw
      if isLast code line then (.ok (text ++ '\n' :: lineText line), rest)
      else readMore ending code (text ++ '\n' :: line) rest

/-- Reads a reply from lines. -/
def readLines (ending : Option IoFault) (lines : List Bytes) :
    Except FtpFault FtpReply × List Bytes :=
  match nextLine ending lines with
  | (.error fault, rest) => (.error fault, rest)
  | (.ok line, rest) =>
    match opening line with
    | .error fault => (.error fault, rest)
    | .ok (code, false) => (.ok ⟨code, String.ofList (lineText line)⟩, rest)
    | .ok (code, true) =>
      match readMore ending code (lineText line) rest with
      | (.error fault, rest) => (.error fault, rest)
      | (.ok text, rest) => (.ok ⟨code, String.ofList text⟩, rest)

/-- Reads the first reply of the bytes that a server has sent, after which the connection ends with
a fault or without one; gives the bytes after the reply. -/
def read (ending : Option IoFault) (bytes : Bytes) : Except FtpFault FtpReply × Bytes :=
  let (result, rest) := readLines ending (Lines.split bytes)
  (result, rest.flatten)

end FtpReply

end InstallMedia
