import InstallMedia.Stream.Feed
import InstallMedia.Text.Lines
import InstallMedia.Text.Split

/-!
# Listings of names

A listing is the names of a directory, one on each line.  Lines end with a line feed, before which
carriage returns do not count; blank lines are no names.

## Main definitions

* `Listing.names`: the names that a feed lists
-/

namespace InstallMedia.Listing

/-- The bytes of a feed up to its end, and the fault that ended them, if one did. -/
def received : Feed → Bytes × Option IoFault
  | [] => ([], none)
  -- A read that gives nothing is the end, whatever would come after it.
  | .chunk [] :: _ => ([], none)
  | .chunk bytes :: rest =>
    let (more, fault) := received rest
    (bytes ++ more, fault)
  | .fault cause :: rest => if cause.isInterrupted then received rest else ([], some cause)

def name (line : List Char) : List Char :=
  Split.trimEnd (· = '\r') (if line.getLast? = some '\n' then line.dropLast else line)

/-- The names on lines, of which the last one is cut off if a fault ended them. -/
def namesOf (ending : Option IoFault) : List Bytes → Except IoFault (List String)
  | [] =>
    match ending with
    | none => .ok []
    | some cause => .error cause
  | raw :: rest =>
    -- A last line that a fault cuts off is not looked at.
    match ending, Lines.isComplete raw with
    | some cause, false => .error cause
    | _, _ =>
      match Utf8.decodeChars raw with
      | .error _ => .error .notText
      | .ok line => do
        let more ← namesOf ending rest
        .ok (if name line = [] then more else String.ofList (name line) :: more)

def names (feed : Feed) : Except IoFault (List String) :=
  let (bytes, ending) := received feed
  namesOf ending (Lines.split bytes)

end InstallMedia.Listing
