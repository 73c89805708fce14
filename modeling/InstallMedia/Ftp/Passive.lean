import InstallMedia.Ftp.Reply

/-!
# Passive mode

The reply to the command for passive mode holds six numbers in parentheses.  The last two of them
are the port of the data connection; the others are not used.

## Main definitions

* `Passive.number?`: a number below 256
* `Passive.port`: the port of a reply
-/

namespace InstallMedia.Passive

/-- A number below 256 in decimal digits, perhaps after a plus sign. -/
def number? (field : List Char) : Option Nat :=
  let digits :=
    match field with
    | '+' :: rest => rest
    | digits => digits
  if digits ≠ [] ∧ digits.all Char.isDigit then
    let n := digits.foldl (fun n c => n * 10 + FtpReply.digitValue c) 0
    if n < 256 then some n else none
  else none

/-- The text between the first opening parenthesis and the first closing one after it. -/
def group? (text : List Char) : Option (List Char) := do
  let (_, after) ← Split.atFirst? (· = '(') text
  let (group, _) ← Split.atFirst? (· = ')') after
  some group

/-- The numbers between commas, with white space around them. -/
def numbers? (group : List Char) : Option (List Nat) :=
  (Split.fields (· = ',') group).mapM fun field => number? (Split.trim Lines.isBlankSpace field)

def portOf? : List Nat → Option Nat
  | [_, _, _, _, high, low] => some (high * 256 + low)
  | _ => none

def port? (text : String) : Option Nat := do
  portOf? (← numbers? (← group? text.toList))

def port (reply : FtpReply) : Except FtpFault Nat :=
  match port? reply.text with
  | some port => .ok port
  | none => .error (.malformedReply s!"{reply.code} {reply.text}")

end InstallMedia.Passive
