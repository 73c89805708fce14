/-!
# Input and output faults

An operation on files, programs or connections fails with a kind and a text.  The kind is what the
library decides by: a missing entry and an interrupted call are treated differently from all other
faults.  The text is what a reader sees.

## Main definitions

* `IoFault`: a kind and a text
* `SystemError`: the errors of the operating system that can arise, with their numbers and texts
-/

namespace InstallMedia

/-- The kinds of input and output faults that are told apart. -/
inductive IoKind where
  | notFound
  | permissionDenied
  | alreadyExists
  | invalidInput
  | unexpectedEnd
  | interrupted
  | wouldBlock
  | brokenPipe
  | writeZero
  | other
  deriving DecidableEq, Repr

/-- A failed input or output operation. -/
structure IoFault where
  kind : IoKind
  message : String
  deriving DecidableEq, Repr

/-- An interrupted operation is tried again. -/
def IoFault.isInterrupted (fault : IoFault) : Bool :=
  fault.kind = .interrupted

/-- A sink that takes nothing of what it is given can never be given all of it. -/
def IoFault.writeZero : IoFault :=
  ⟨.writeZero, "failed to write whole buffer"⟩

/-- Bytes that are no text where text is read. -/
def IoFault.notText : IoFault :=
  ⟨.other, "stream did not contain valid UTF-8"⟩

/-- The errors of the operating system. -/
inductive SystemError where
  | noSuchEntry
  | argumentsTooLong
  | execFormat
  | permissionDenied
  | entryExists
  | notDirectory
  | isDirectory
  | nameTooLong
  | directoryNotEmpty
  | networkUnreachable
  | connectionReset
  | connectionRefused
  deriving DecidableEq, Repr

namespace SystemError

def number : SystemError → Nat
  | noSuchEntry => 2
  | argumentsTooLong => 7
  | execFormat => 8
  | permissionDenied => 13
  | entryExists => 17
  | notDirectory => 20
  | isDirectory => 21
  | nameTooLong => 36
  | directoryNotEmpty => 39
  | networkUnreachable => 101
  | connectionReset => 104
  | connectionRefused => 111

def text : SystemError → String
  | noSuchEntry => "No such file or directory"
  | argumentsTooLong => "Argument list too long"
  | execFormat => "Exec format error"
  | permissionDenied => "Permission denied"
  | entryExists => "File exists"
  | notDirectory => "Not a directory"
  | isDirectory => "Is a directory"
  | nameTooLong => "File name too long"
  | directoryNotEmpty => "Directory not empty"
  | networkUnreachable => "Network is unreachable"
  | connectionReset => "Connection reset by peer"
  | connectionRefused => "Connection refused"

def kind : SystemError → IoKind
  | noSuchEntry => .notFound
  | permissionDenied => .permissionDenied
  | entryExists => .alreadyExists
  | _ => .other

/-- The fault that an error is reported as. -/
def fault (error : SystemError) : IoFault :=
  ⟨error.kind, s!"{error.text} (os error {error.number})"⟩

end SystemError

/-- A path or an argument that holds the terminator of texts in system calls. -/
def IoFault.pathHoldsTerminator : IoFault :=
  ⟨.invalidInput, "file name contained an unexpected NUL byte"⟩

/-- A program argument that holds the terminator of texts in system calls. -/
def IoFault.argumentHoldsTerminator : IoFault :=
  ⟨.invalidInput, "nul byte found in provided data"⟩

end InstallMedia
