import InstallMedia.CommandLine.Grammar
import InstallMedia.Source.Options

/-!
# Arguments of the command

The command probes for a name at a source, fetches it or stores a local file under it.  The options
that say how to make the source may stand before the name of the command and after it; what stands
after it wins.

## Main definitions

* `Command`, `Arguments`
* `Arguments.parse`: the arguments that words give
* `Arguments.options`: the options of the source
-/

namespace InstallMedia

open CommandLine (Level Matches Opt Positional)

/-- What is to be done. -/
inductive Command where
  /-- Says whether a name is there. -/
  | probe (address name : String)
  /-- Copies a name to a local file or, if there is none, to the standard output. -/
  | fetch (address name : String) (output : Option String)
  /-- Copies a local file to a name. -/
  | store (address name localFile : String)
  deriving DecidableEq, Repr

/-- The address of the source that is used. -/
def Command.address : Command → String
  | probe address _ => address
  | fetch address _ _ => address
  | store address _ _ => address

/-- What is to be done, and how the source is to be made. -/
structure Arguments where
  readWrite : Bool
  /-- The filesystem types to try on a device, in order. -/
  fsTypes : List String
  mountRoot : Option String
  /-- The seconds that an HTTP request may take. -/
  timeout : Option Nat
  command : Command
  deriving DecidableEq, Repr

namespace Arguments

/-! ## Grammar -/

/-- The options that stand before the name of a command and after it. -/
def sharedOptions : List Opt :=
  [{ long := "read-write", action := .flag },
   { long := "fs", action := .values .text },
   { long := "mount-root", action := .value .path },
   { long := "timeout", action := .value .number },
   { long := "help", short := some 'h', action := .help }]

def helpWord : String := "help"

def commandNames : List String := ["probe", "fetch", "store"]

/-- What stands before the name of a command. -/
def outerLevel : Level where
  options := sharedOptions ++ [{ long := "version", short := some 'V', action := .version }]
  positionals := []
  commands := commandNames ++ [helpWord]

/-- The option that names a file to copy to. -/
def outputOption : Opt := { long := "output", short := some 'o', action := .value .path }

/-- The positional arguments that every command has. -/
def sharedPositionals : List Positional := [⟨"address", .text⟩, ⟨"name", .text⟩]

/-- What stands after the name of a command. -/
def innerLevel (command : String) : Level where
  options := if command = "fetch" then outputOption :: sharedOptions else sharedOptions
  positionals :=
    if command = "store" then sharedPositionals ++ [⟨"local_file", .path⟩] else sharedPositionals
  commands := []

/-! ## Reading -/

/-- What a request for help asks for: the command that is named, if one is. -/
def helpFault : List String → CommandLine.Fault
  | [] => .helpWanted
  | [word] =>
    if outerLevel.commands.contains word then .helpWanted else .unknownCommand
  | _ => .unknownCommand

/-- The values of an option: those given after the name of the command, if there are any. -/
def inherited (outer inner : Matches) (name : String) : List String :=
  if inner.has name then inner.values name else outer.values name

/-- The command that the values of its level make. -/
def commandOf (name : String) (inner : Matches) : Command :=
  let first (argument : String) := (inner.values argument).head?
  let address := (first "address").getD ""
  let wanted := (first "name").getD ""
  match name with
  | "fetch" => .fetch address wanted (first "output")
  | "store" => .store address wanted ((first "local_file").getD "")
  | _ => .probe address wanted

/-- The arguments that the values of both levels make. -/
def ofMatches (name : String) (outer inner : Matches) : Arguments where
  readWrite := outer.has "read-write" || inner.has "read-write"
  fsTypes := inherited outer inner "fs"
  mountRoot := (inherited outer inner "mount-root").head?
  timeout := (inherited outer inner "timeout").head?.bind CommandLine.number?
  command := commandOf name inner

/-- The arguments that words give. -/
def parse (words : List String) : Except CommandLine.Fault Arguments := do
  match ← CommandLine.scan outerLevel {} words with
  | (outer, none) => do
    let outer ← CommandLine.settle outer
    if outer.given = [] then .error .nothingGiven else .error .commandMissing
  | (outer, some (name, rest)) => do
    if name = helpWord then .error (helpFault rest)
    let level := innerLevel name
    let (inner, _) ← CommandLine.scan level {} rest
    let inner ← CommandLine.complete level inner
    let outer ← CommandLine.settle outer
    return ofMatches name outer.given inner

/-! ## Use -/

def options (a : Arguments) : SourceOptions where
  readOnly := !a.readWrite
  fsTypes := if a.fsTypes = [] then none else some a.fsTypes
  mountRoot := a.mountRoot
  httpTimeout := a.timeout

end Arguments

end InstallMedia
