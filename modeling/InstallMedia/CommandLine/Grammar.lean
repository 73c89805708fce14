/-!
# Command lines

A command line is options and positional arguments, on one level or two: a word that names a command
begins the second level.  Long options begin with two hyphens and short ones with one; a value
follows its option, or is attached to it.  After two hyphens alone there are only positional
arguments.

## Main definitions

* `CommandLine.Level`, `CommandLine.Fault`: what a level admits, and how a line breaks it
* `CommandLine.Matches`: the values that were given
* `CommandLine.scan`: reads one level, up to the name of a command
* `CommandLine.settle`, `CommandLine.complete`: the end of a level
-/

namespace InstallMedia.CommandLine

/-- How a command line breaks its grammar, or asks for something else than a command. -/
inductive Fault where
  | helpWanted
  | versionWanted
  | nothingGiven
  | commandMissing
  | unknownCommand
  | unknownArgument
  | argumentMissing
  /-- A value that is missing, or empty where it must not be. -/
  | emptyValue
  | invalidValue
  | repeated
  | unwantedValue
  deriving DecidableEq, Repr

/-- What values an argument takes. -/
inductive ValueKind where
  | text
  | path
  | number
  deriving DecidableEq, Repr

/-- What an option does. -/
inductive Action where
  /-- Is given or not. -/
  | flag
  /-- Has one value. -/
  | value (kind : ValueKind)
  /-- Has a value each time that it is given. -/
  | values (kind : ValueKind)
  | help
  | version
  deriving DecidableEq, Repr

/-- An option; its long name is how its values are found. -/
structure Opt where
  long : String
  short : Option Char := none
  action : Action
  deriving DecidableEq, Repr

structure Positional where
  name : String
  kind : ValueKind
  deriving DecidableEq, Repr

/-- What a level admits. -/
structure Level where
  options : List Opt
  positionals : List Positional
  commands : List String

/-- The values that were given, in order. -/
abbrev Matches := List (String × List String)

def Matches.values (m : Matches) (name : String) : List String := (m.lookup name).getD []

def Matches.has (m : Matches) (name : String) : Bool := (m.lookup name).isSome

def Matches.add (m : Matches) (name : String) (values : List String) : Matches :=
  (name, m.values name ++ values) :: m.filter (·.1 ≠ name)

/-! ## Values -/

/-- The number of 64 bits that a text means. -/
def number? (s : String) : Option Nat :=
  let digits :=
    match s.toList with
    | '+' :: rest => rest
    | digits => digits
  if digits ≠ [] ∧ digits.all Char.isDigit then
    let n := digits.foldl (fun n c => n * 10 + (c.toNat - 0x30)) 0
    if n < Nat.pow 2 64 then some n else none
  else none

/-- Refuses a value of the wrong kind. -/
def checkValue (kind : ValueKind) (value : String) : Except Fault Unit :=
  match kind with
  | .text => .ok ()
  | .path => if value = "" then .error .emptyValue else .ok ()
  | .number => if (number? value).isSome then .ok () else .error .invalidValue

/-- An argument whose value has not been checked yet. -/
structure Pending where
  name : String
  kind : ValueKind
  repeatable : Bool
  value : Option String
  deriving DecidableEq, Repr

/-- How far a level has been read. -/
structure Progress where
  given : Matches := []
  /-- The argument read last, if it takes a value. -/
  pending : Option Pending := none
  /-- Only positional arguments follow. -/
  trailing : Bool := false
  /-- The number of positional arguments read. -/
  position : Nat := 0
  deriving DecidableEq, Repr

/-- Whether the next word is the value of an option. -/
def Progress.awaitsValue (p : Progress) : Bool :=
  match p.pending with
  | some pending => pending.value.isNone
  | none => false

/-- Gives a name values, unless it has some and cannot be repeated. -/
def give (p : Progress) (name : String) (repeatable : Bool) (values : List String) :
    Except Fault Progress :=
  if p.given.has name && !repeatable then .error .repeated
  else .ok { p with given := p.given.add name values }

/-- Checks the value of the argument read last. -/
def settle (p : Progress) : Except Fault Progress :=
  match p.pending with
  | none => .ok p
  | some ⟨_, _, _, none⟩ => .error .emptyValue
  | some ⟨name, kind, repeatable, some value⟩ => do
    let p ← give { p with pending := none } name repeatable [value]
    checkValue kind value
    return p

/-! ## Options -/

/-- Reads an option that has an attached value or none. -/
def takeOption (p : Progress) (o : Opt) (attached : Option String) : Except Fault Progress :=
  match o.action with
  | .flag =>
    -- The value before it is checked first, so that its fault comes first.
    match attached with
    | some _ => .error .unwantedValue
    | none => do give (← settle p) o.long false []
  | .help =>
    match attached with
    | some _ => .error .unwantedValue
    | none => do let _ ← settle p; .error .helpWanted
  | .version =>
    match attached with
    | some _ => .error .unwantedValue
    | none => do let _ ← settle p; .error .versionWanted
  | .value kind => takeValue p o.long kind false attached
  | .values kind => takeValue p o.long kind true attached
where
  /-- Reads an option that takes a value. -/
  takeValue (p : Progress) (name : String) (kind : ValueKind) (repeatable : Bool)
      (attached : Option String) : Except Fault Progress := do
    let p ← settle p
    let p := { p with pending := some ⟨name, kind, repeatable, attached⟩ }
    if attached.isSome then settle p else return p

def Opt.takesValue (o : Opt) : Bool :=
  match o.action with
  | .value _ | .values _ => true
  | _ => false

/-- Reads a long option: its name, and a value after an equals sign. -/
def takeLong (level : Level) (p : Progress) (word : List Char) : Except Fault Progress :=
  let name := String.ofList (word.takeWhile (· ≠ '='))
  let attached :=
    match word.dropWhile (· ≠ '=') with
    | [] => none
    | _ :: value => some (String.ofList value)
  match level.options.find? (·.long = name) with
  | none => .error .unknownArgument
  | some o => takeOption p o attached

/-- Reads short options; what follows one that takes a value is its value. -/
def takeShorts (level : Level) (p : Progress) : List Char → Except Fault Progress
  | [] => .ok p
  | c :: rest =>
    match level.options.find? (·.short = some c) with
    | none => .error .unknownArgument
    | some o =>
      -- What is left of the word is the value, and no further options.
      if o.takesValue then
        takeOption p o
          (match rest with
          | [] => none
          | '=' :: value => some (String.ofList value)
          | value => some (String.ofList value))
      else do takeShorts level (← takeOption p o none) rest

/-! ## Words -/

/-- Refuses a word where no positional argument is admitted. -/
def refuseWord (level : Level) (p : Progress) (word : String) : Fault :=
  if level.commands = [] then .unknownArgument
  else if p.trailing && level.commands.contains word then .unknownArgument
  else .unknownCommand

def takePositional (level : Level) (p : Progress) (word : String) : Except Fault Progress :=
  match level.positionals[p.position]? with
  | none => .error (refuseWord level p word)
  | some positional => do
    let p ← settle p
    return { p with
      pending := some ⟨positional.name, positional.kind, false, some word⟩
      position := p.position + 1 }

/-- Reads a word that is not the name of a command. -/
def takeWord (level : Level) (p : Progress) (word : String) : Except Fault Progress :=
  if p.trailing then takePositional level p word
  else
    match word.toList with
    | ['-', '-'] => .ok { p with trailing := true }
    | '-' :: '-' :: long => takeLong level p long
    | '-' :: c :: shorts => takeShorts level p (c :: shorts)
    -- A hyphen alone is a word like any other.
    | _ =>
      match p.pending with
      | some ⟨name, kind, repeatable, none⟩ =>
        .ok { p with pending := some ⟨name, kind, repeatable, some word⟩ }
      | _ => takePositional level p word

/-- Reads the words of a level, up to the name of a command, after which the next level begins. -/
def scan (level : Level) (p : Progress) :
    List String → Except Fault (Progress × Option (String × List String))
  | [] => .ok (p, none)
  | word :: rest =>
    if !p.trailing && !p.awaitsValue && level.commands.contains word then
      .ok (p, some (word, rest))
    else do scan level (← takeWord level p word) rest

/-- The end of a level: its last value is checked, and every positional argument must be there. -/
def complete (level : Level) (p : Progress) : Except Fault Matches := do
  let p ← settle p
  if level.positionals.all fun positional => p.given.has positional.name then return p.given
  else .error .argumentMissing

end InstallMedia.CommandLine
