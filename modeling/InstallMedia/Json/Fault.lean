import InstallMedia.Number.Shortest
import InstallMedia.Text.Quoted

/-!
# Faults of JSON text

A fault says what is wrong and where: a line, and a column counted in bytes.

## Main definitions

* `Json.Cause`, `Json.Fault`
* `Json.Found`: a value of the wrong kind
* `Json.Fault.message`
-/

namespace InstallMedia.Json

/-- A value where another kind of value is wanted. -/
inductive Found where
  | null
  | bool (value : Bool)
  | unsigned (value : Nat)
  | negative (magnitude : Nat)
  | float (minus : Bool) (magnitude : Binary64)
  | text (value : String)
  | list
  | object
  deriving DecidableEq, Repr

/-- What is wrong with a JSON text. -/
inductive Cause where
  | endInList
  | endInObject
  | endInString
  | endInValue
  | expectedColon
  | expectedListCommaOrEnd
  | expectedObjectCommaOrEnd
  | expectedWord
  | expectedValue
  | invalidEscape
  | invalidNumber
  | numberTooLarge
  | controlCharacter
  | keyNotText
  | loneSurrogate
  | trailingComma
  | trailingCharacters
  | unfinishedSurrogates
  | invalidType (found : Found) (expected : String)
  | invalidValue (found : Found) (expected : String)
  | invalidLength (length : Nat) (expected : String)
  | missingField (name : String)
  | unknownField (name : String) (known : List String)
  | duplicateField (name : String)
  deriving DecidableEq, Repr

/-- A place in a text. -/
structure Position where
  line : Nat
  column : Nat
  deriving DecidableEq, Repr

/-- What is wrong, and where if that is known. -/
structure Fault where
  cause : Cause
  position : Option Position
  deriving DecidableEq, Repr

/-- The mark around names and values. -/
def ticked (s : String) : String :=
  let tick := (Char.ofNat 0x60).toString
  tick ++ s ++ tick

/-- A found value as a message names it. -/
def Found.description : Found → String
  | .null => "null"
  | .bool value => "boolean " ++ ticked (if value then "true" else "false")
  | .unsigned value => "integer " ++ ticked (toString value)
  | .negative magnitude => "integer " ++ ticked ("-" ++ toString magnitude)
  | .float minus magnitude =>
    "floating point " ++ ticked ((if minus then "-" else "") ++ Shortest.text magnitude)
  | .text value => "string " ++ Quoted.text value
  | .list => "sequence"
  | .object => "map"

/-- Names to choose from. -/
def oneOf : List String → String
  | [] => "there are no fields"
  | [name] => "expected " ++ ticked name
  | [first, second] => "expected " ++ ticked first ++ " or " ++ ticked second
  | names => "expected one of " ++ String.intercalate ", " (names.map ticked)

def Cause.message : Cause → String
  | endInList => "EOF while parsing a list"
  | endInObject => "EOF while parsing an object"
  | endInString => "EOF while parsing a string"
  | endInValue => "EOF while parsing a value"
  | expectedColon => "expected " ++ ticked ":"
  | expectedListCommaOrEnd => "expected " ++ ticked "," ++ " or " ++ ticked "]"
  | expectedObjectCommaOrEnd => "expected " ++ ticked "," ++ " or " ++ ticked "\x7d"
  | expectedWord => "expected ident"
  | expectedValue => "expected value"
  | invalidEscape => "invalid escape"
  | invalidNumber => "invalid number"
  | numberTooLarge => "number out of range"
  | controlCharacter => "control character (\\u0000-\\u001F) found while parsing a string"
  | keyNotText => "key must be a string"
  | loneSurrogate => "lone leading surrogate in hex escape"
  | trailingComma => "trailing comma"
  | trailingCharacters => "trailing characters"
  | unfinishedSurrogates => "unexpected end of hex escape"
  | invalidType found expected => "invalid type: " ++ found.description ++ ", expected " ++ expected
  | invalidValue found expected =>
    "invalid value: " ++ found.description ++ ", expected " ++ expected
  | invalidLength length expected =>
    "invalid length " ++ toString length ++ ", expected " ++ expected
  | missingField name => "missing field " ++ ticked name
  | unknownField name known => "unknown field " ++ ticked name ++ ", " ++ oneOf known
  | duplicateField name => "duplicate field " ++ ticked name

def Fault.message (fault : Fault) : String :=
  match fault.position with
  | none => fault.cause.message
  | some ⟨line, column⟩ => fault.cause.message ++ s!" at line {line} column {column}"

end InstallMedia.Json
