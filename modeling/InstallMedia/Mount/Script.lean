import InstallMedia.Mount.Mounter

/-!
# Programs that are scripts

A program is a file marked as one.  Its text is a list of commands: `exit` with a status, `kill` of
the program itself, and the loop that notes each argument on a line of its own in the file `log`
beside the program.

## Main definitions

* `Script.Command`, `Script.read`
* `Script.run`
* `Script.programs`: running the programs of a tree
-/

namespace InstallMedia.Script

/-- One command of a script. -/
inductive Command where
  | exit (status : Nat)
  | killSelf
  | noteArguments
  | nothing
  | unknown
  deriving DecidableEq, Repr

/-- The first words of the loop that notes arguments. -/
def noteLoop : List String :=
  ["for a in \"$@\"", " do printf \"%s\\n\" \"[$a]\"", " done >> \"$\x7b0%/*\x7d/log\""]

def words (s : String) : List String :=
  ((Split.fields (fun c => c = ' ' || c = '\t') s.toList).filter (· ≠ [])).map String.ofList

def number? (s : String) : Option Nat :=
  if s ≠ "" ∧ s.toList.all Char.isDigit then
    some (s.toList.foldl (fun n c => n * 10 + (c.toNat - 0x30)) 0)
  else none

def command (s : String) : Command :=
  match words s with
  | [] | ["true"] | [":"] => .nothing
  | ["false"] => .exit 1
  | ["exit"] => .exit 0
  | ["exit", status] =>
    match number? status with
    | some n => .exit (n % 256)
    | none => .exit 2
  | ["kill", _, "$$"] | ["kill", "$$"] => .killSelf
  | word :: _ => if word.startsWith "#" then .nothing else .unknown

/-- The commands of pieces between semicolons and line ends. -/
def commands : List String → List Command
  | a :: b :: c :: rest =>
    if [a, b, c] = noteLoop then .noteArguments :: commands rest
    else command a :: commands (b :: c :: rest)
  | pieces => pieces.map command

def read (text : String) : List Command :=
  commands ((Split.fields (fun c => c = ';' || c = '\n') text.toList).map String.ofList)

/-- The path of the file `log` beside a program. -/
def logBeside (program : String) : String :=
  match Split.atLast? (· = '/') program.toList with
  | some (directory, _) => String.ofList directory ++ "/log"
  | none => program ++ "/log"

/-- Notes arguments in the file `log` beside a program, each on a line of its own. -/
def note (program : String) (arguments : List String) (files : FileTree) : FileTree :=
  let lines := arguments.flatMap fun a => Utf8.encode ("[" ++ a ++ "]\n")
  match files.openFile (logBeside program) with
  | .ok (.file id _) => files.append id lines
  | .ok .directory => files
  | .error _ => files.writeFile (logBeside program) lines

def run (program : String) (arguments : List String) :
    List Command → FileTree → ExitStatus × FileTree
  | [], files => (.exited 0, files)
  | .exit status :: _, files => (.exited status, files)
  | .killSelf :: _, files => (.killed, files)
  | .noteArguments :: rest, files => run program arguments rest (note program arguments files)
  | .nothing :: rest, files => run program arguments rest files
  | [.unknown], files => (.exited 127, files)
  | .unknown :: rest, files => run program arguments rest files

/-- Running the programs of a tree. -/
def programs : Programs := fun program arguments files =>
  if (program :: arguments).any FilePath.holdsTerminator then
    (.error .argumentHoldsTerminator, files)
  else
    match files.find program with
    | .error cause => (.error cause, files)
    | .ok (.absent _) => (.error (SystemError.fault .noSuchEntry), files)
    | .ok (.present _ .directory) => (.error (SystemError.fault .permissionDenied), files)
    | .ok (.present _ (.file _ false)) => (.error (SystemError.fault .permissionDenied), files)
    | .ok (.present _ (.file id true)) =>
      let (status, files) := run program arguments (read (Utf8.decodeLossy (files.bytes id))) files
      (.ok status, files)

end InstallMedia.Script
