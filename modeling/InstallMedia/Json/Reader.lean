import InstallMedia.Json.Numeral
import InstallMedia.Json.Text

/-!
# Reading JSON values of known shapes

A value is read by a reader of the shape that is wanted, so that a value of another shape is refused
where it stands.  An object or a list whose contents are refused is still closed, as far as it can
be, before the fault is given its place.

## Main definitions

* `Json.bool`, `Json.string`, `Json.unsigned`, `Json.optional`, `Json.list`: readers of shapes
* `Json.Shape`, `Json.record`: objects with known members, also written as lists
* `Json.skipValue`: passes over any value
* `Json.document`: a text that holds one value
-/

namespace InstallMedia.Json

/-! ## Plain values -/

/-- Refuses the value that begins at the cursor, where another shape is wanted. -/
def refuse {α : Type} (expected : String) : Reader α := placed do
  match ← peek with
  | some 'n' => do skip; word ['u', 'l', 'l']; failUnplaced (.invalidType .null expected)
  | some 't' => do skip; word ['r', 'u', 'e']; failUnplaced (.invalidType (.bool true) expected)
  | some 'f' => do
    skip
    word ['a', 'l', 's', 'e']
    failUnplaced (.invalidType (.bool false) expected)
  | some '"' => do
    skip
    let s ← text
    failUnplaced (.invalidType (.text s) expected)
  | some '[' => failUnplaced (.invalidType .list expected)
  | some '\x7b' => failUnplaced (.invalidType .object expected)
  | some c =>
    if c = '-' || c.isDigit then do
      let n ← signedNumeral
      failUnplaced (.invalidType n.found expected)
    else failNext .expectedValue
  | none => failNext .expectedValue

/-- Reads a value that begins with some character. -/
def beginning {α : Type} (read : Char → Reader α) : Reader α := do
  match ← peekValue with
  | none => failNext .endInValue
  | some c => read c

def bool : Reader Bool := beginning fun c =>
  if c = 't' then do skip; word ['r', 'u', 'e']; pure true
  else if c = 'f' then do skip; word ['a', 'l', 's', 'e']; pure false
  else refuse "a boolean"

/-- Reads a text, which a message calls `expected`. -/
def string (expected : String) : Reader String := beginning fun c =>
  if c = '"' then do skip; text else refuse expected

/-- Reads a number of 64 bits that is not negative. -/
def unsigned : Reader Nat := beginning fun c =>
  if c = '-' || c.isDigit then placed do
    match ← signedNumeral with
    | .unsigned n => pure n
    | .negative n => failUnplaced (.invalidValue (.negative n) "u64")
    | n => failUnplaced (.invalidType n.found "u64")
  else refuse "u64"

/-- Reads a value that may be null. -/
def optional {α : Type} (read : Reader α) : Reader (Option α) := do
  match ← peekValue with
  | some 'n' => do skip; word ['u', 'l', 'l']; pure none
  | _ => some <$> read

/-! ## Lists and objects -/

def closeList : Reader Unit := do
  match ← peekValue with
  | some ']' => skip
  | some ',' => do
    skip
    match ← peekValue with
    | some ']' => failNext .trailingComma
    | _ => failNext .trailingCharacters
  | some _ => failNext .trailingCharacters
  | none => failNext .endInList

def closeObject : Reader Unit := do
  match ← peekValue with
  | some '\x7d' => skip
  | some ',' => failNext .trailingComma
  | some _ => failNext .trailingCharacters
  | none => failNext .endInObject

/-- Reads contents and closes what holds them, even if the contents are refused.  The first fault
counts; one without a place has the place then reached. -/
def closing {α : Type} (contents : Reader α) (close : Reader Unit) : Reader α := placed fun c =>
  match contents c with
  | (.ok a, c) =>
    match close c with
    | (.ok (), c) => (.ok a, c)
    | (.error e, c) => (.error e, c)
  | (.error e, c) => (.error e, (close c).2)

/-- Whether a list goes on with another element; its comma is read. -/
def hasElement (first : Bool) : Reader Bool := do
  match ← peekValue with
  | none => failNext .endInList
  | some ']' => pure false
  | some c =>
    if first then pure true
    else if c = ',' then do
      skip
      match ← peekValue with
      | some ']' => failNext .trailingComma
      | some _ => pure true
      | none => failNext .endInValue
    else failNext .expectedListCommaOrEnd

/-- Whether an object goes on with another member; its comma is read. -/
def hasMember (first : Bool) : Reader Bool := do
  let next ← do
    match ← peekValue with
    | none => failNext .endInObject
    | some '\x7d' => return false
    | some c =>
      if first then pure (some c)
      else if c = ',' then do skip; peekValue
      else failNext .expectedObjectCommaOrEnd
  match next with
  | some '"' => pure true
  | some '\x7d' => failNext .trailingComma
  | some _ => failNext .keyNotText
  | none => failNext .endInValue

/-- Reads the elements of a list, `before` having been read: at most `fuel` of them. -/
def elements {α : Type} (read : Reader α) (before : List α) : (fuel : Nat) → Reader (List α)
  | 0 => failHere .endInList
  | fuel + 1 => do
    if ← hasElement before.isEmpty then
      let a ← read
      elements read (a :: before) fuel
    else pure before.reverse

def list {α : Type} (read : Reader α) : Reader (List α) := beginning fun c =>
  if c = '[' then do
    skip
    closing (fun c => elements read [] (c.rest.length + 1) c) closeList
  else refuse "a sequence"

def colon : Reader Unit := do
  match ← peekValue with
  | some ':' => skip
  | some _ => failNext .expectedColon
  | none => failNext .endInObject

/-! ## Any value -/

/-- Passes over a number after its sign. -/
def skipNumeral : Reader Unit := do
  match ← peek with
  | some '0' => do
    skip
    match ← peek with
    | some c => if c.isDigit then failNext .invalidNumber else pure ()
    | none => pure ()
  | some c => if c.isDigit then discard digits else failNext .invalidNumber
  | none => failNext .invalidNumber
  if (← peek) = some '.' then
    skip
    if (← digits) = [] then failNext .invalidNumber
  if ((← peek).map Numeral.isExponentMark).getD false then
    skip
    if (← peek) = some '+' ∨ (← peek) = some '-' then skip
    if (← digits) = [] then failNext .invalidNumber

/-- What an enclosing value is. -/
inductive Enclosing where
  | list
  | object
  deriving DecidableEq, Repr

/-- The fault of contents after which neither a comma nor the end follows. -/
def Enclosing.commaOrEnd : Enclosing → Cause
  | .list => .expectedListCommaOrEnd
  | .object => .expectedObjectCommaOrEnd

/-- The fault of contents after which the text ends. -/
def Enclosing.unfinished : Enclosing → Cause
  | .list => .endInList
  | .object => .endInObject

/-- The character that closes an enclosing value. -/
def Enclosing.mark : Enclosing → Char
  | .list => ']'
  | .object => '\x7d'

/-- Passes over a name and its colon, if the enclosing value has names. -/
def skipName : Enclosing → Reader Unit
  | .list => pure ()
  | .object => do
    match ← peekValue with
    | some '"' => skip
    | some _ => failNext .keyNotText
    | none => failNext .endInObject
    skipText
    colon

/-- Passes over what closes enclosing values, as far as it stands at the cursor; gives the values
that are still open when a further value follows, or nothing when all are closed.  At most `fuel`
steps. -/
def skipClosings (afterValue : Bool) (stack : List Enclosing) : (fuel : Nat) →
    Reader (Option (List Enclosing))
  | 0 => failHere .endInValue
  | fuel + 1 =>
    match stack with
    | [] => pure none
    | enclosing :: outer => do
      match ← peekValue with
      | none => failNext enclosing.unfinished
      | some c =>
        if c = ',' ∧ afterValue then do skip; pure (some stack)
        else if c = enclosing.mark then do skip; skipClosings true outer fuel
        else if afterValue then failNext enclosing.commaOrEnd
        else pure (some stack)

/-- Passes over a value inside enclosing values, and over all that follows until they are closed: at
most `fuel` values. -/
def skipInside (stack : List Enclosing) : (fuel : Nat) → Reader Unit
  | 0 => failHere .endInValue
  | fuel + 1 => do
    let open? ← beginning fun c => do
      if c = '[' then do skip; pure (some Enclosing.list)
      else if c = '\x7b' then do skip; pure (some Enclosing.object)
      else
        if c = 'n' then do skip; word ['u', 'l', 'l']
        else if c = 't' then do skip; word ['r', 'u', 'e']
        else if c = 'f' then do skip; word ['a', 'l', 's', 'e']
        else if c = '-' then do skip; skipNumeral
        else if c.isDigit then skipNumeral
        else if c = '"' then do skip; skipText
        else failNext .expectedValue
        pure none
    let stack := open?.toList ++ stack
    -- In a list or an object that has just been opened no value precedes, so no comma may come.
    match ← skipClosings open?.isNone stack (stack.length + 1) with
    | none => pure ()
    | some [] => pure ()
    | some (enclosing :: outer) => do
      skipName enclosing
      skipInside (enclosing :: outer) fuel

/-- Passes over any value. -/
def skipValue : Reader Unit := fun c => skipInside [] (c.rest.length + 1) c

/-! ## Records -/

/-- How an object with known members is read into a draft, member by member.  A list stands for an
object whose members come in order. -/
structure Shape (σ : Type) where
  /-- What a message calls the record. -/
  description : String
  /-- What a message calls the record when a list for it is too short. -/
  lengthDescription : String
  /-- The known members, in order. -/
  names : List String
  /-- A draft without members. -/
  blank : σ
  /-- Whether a draft has a member. -/
  has : String → σ → Bool
  /-- Reads a member into a draft. -/
  read : String → σ → Reader σ
  /-- The members that a list must have. -/
  required : List String
  /-- Members with other names are passed over and not refused. -/
  lenient : Bool

variable {σ : Type}

/-- Reads one member, name and value, into a draft. -/
def member (shape : Shape σ) (draft : σ) : Reader σ := do
  skip
  let name ← text
  if shape.names.contains name then
    -- A member given twice is refused before its value is looked at.
    if shape.has name draft then failUnplaced (.duplicateField name)
    else do colon; shape.read name draft
  else if shape.lenient then do
    colon
    skipValue
    pure draft
  else failUnplaced (.unknownField name shape.names)

/-- Reads the members of an object into a draft: at most `fuel` of them. -/
def members (shape : Shape σ) (first : Bool) (draft : σ) : (fuel : Nat) → Reader σ
  | 0 => failHere .endInObject
  | fuel + 1 => do
    if ← hasMember first then
      let draft ← member shape draft
      members shape false draft fuel
    else pure draft

/-- Fails if a draft lacks a member that is required. -/
def complete (shape : Shape σ) (draft : σ) : Reader σ :=
  match shape.required.find? fun name => !shape.has name draft with
  | some name => failUnplaced (.missingField name)
  | none => pure draft

/-- Reads the elements of a list into a draft, for the members in order, `index` of which have
been read. -/
def inOrder (shape : Shape σ) (index : Nat) (draft : σ) : List String → Reader σ
  | [] => pure draft
  | name :: more => do
    if ← hasElement (index = 0) then
      let draft ← shape.read name draft
      inOrder shape (index + 1) draft more
    else if shape.required.contains name then
      failUnplaced (.invalidLength index shape.lengthDescription)
    else pure draft

/-- Reads a record. -/
def record (shape : Shape σ) : Reader σ := beginning fun c =>
  if c = '[' then do
    skip
    closing (inOrder shape 0 shape.blank shape.names) closeList
  else if c = '\x7b' then do
    skip
    closing (fun c => (members shape true shape.blank (c.rest.length + 1) >>= complete shape) c)
      closeObject
  else refuse shape.description

/-- Reads a text that holds one value and nothing else. -/
def document {α : Type} (read : Reader α) (s : String) : Except Fault α :=
  (do
    let a ← read
    match ← peekValue with
    | some _ => failNext .trailingCharacters
    | none => pure a : Reader α) (.ofText s) |>.1

end InstallMedia.Json
