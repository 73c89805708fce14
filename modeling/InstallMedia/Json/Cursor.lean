import InstallMedia.Attempt
import InstallMedia.Json.Fault
import InstallMedia.Text.Utf8

/-!
# Reading JSON text with a place

A cursor is the text that is left and the place reached.  A reader moves the cursor; where it fails,
the cursor stays where the failure was found.  Places are counted in bytes, so a fault can lie
inside a character.

## Main definitions

* `Json.Cursor`, `Json.Reader`
* `Json.peek`, `Json.skip`, `Json.peekValue`: looking at the next character, and passing it over
* `Json.failHere`, `Json.failAfter`: faults at the place reached and some bytes after it
* `Json.placed`: gives a fault without a place the place reached
-/

namespace InstallMedia.Json

/-- The text that is left, and the place reached. -/
structure Cursor where
  rest : List Char
  line : Nat
  column : Nat
  deriving DecidableEq, Repr

/-- A reader of JSON text. -/
abbrev Reader (α : Type) := Attempt Cursor Fault α

namespace Cursor

def ofText (s : String) : Cursor := ⟨s.toList, 1, 0⟩

def position (c : Cursor) : Position := ⟨c.line, c.column⟩

/-- The place one byte further. -/
def stepByte (p : Position) (b : UInt8) : Position :=
  if b = 0x0A then ⟨p.line + 1, 0⟩ else ⟨p.line, p.column + 1⟩

/-- The place so many bytes further, or the end of the text if that comes before. -/
def positionAfter (bytes : Nat) (c : Cursor) : Position :=
  ((Utf8.encodeChars (c.rest.take bytes)).take bytes).foldl stepByte c.position

/-- The cursor after one character more. -/
def advance (c : Cursor) : Cursor :=
  match c.rest with
  | [] => c
  | '\n' :: rest => ⟨rest, c.line + 1, 0⟩
  | x :: rest => ⟨rest, c.line, c.column + (Utf8.encodeChar x).length⟩

/-- The cursor after the characters of which `p` holds. -/
def skipWhile (p : Char → Bool) : List Char → Nat → Nat → Cursor
  | [], line, column => ⟨[], line, column⟩
  | x :: rest, line, column =>
    if p x then
      if x = '\n' then skipWhile p rest (line + 1) 0
      else skipWhile p rest line (column + (Utf8.encodeChar x).length)
    else ⟨x :: rest, line, column⟩

end Cursor

/-! ## Faults -/

def failHere {α : Type} (cause : Cause) : Reader α := fun c =>
  (.error ⟨cause, some c.position⟩, c)

/-- Fails at the place so many bytes further. -/
def failAfter {α : Type} (bytes : Nat) (cause : Cause) : Reader α := fun c =>
  (.error ⟨cause, some (c.positionAfter bytes)⟩, c)

/-- Fails at the next byte, or at the end of the text. -/
def failNext {α : Type} (cause : Cause) : Reader α := failAfter 1 cause

/-- Fails at a place that the reader of an enclosing value knows. -/
def failUnplaced {α : Type} (cause : Cause) : Reader α := fun c =>
  (.error ⟨cause, none⟩, c)

/-- Gives a fault without a place the place reached. -/
def placed {α : Type} (x : Reader α) : Reader α := fun c =>
  match x c with
  | (.error ⟨cause, none⟩, c) => (.error ⟨cause, some c.position⟩, c)
  | result => result

/-! ## Characters -/

def peek : Reader (Option Char) := fun c => (.ok c.rest.head?, c)

def skip : Reader Unit := Attempt.modify Cursor.advance

/-- Whether a character means nothing between values. -/
def isBlank (c : Char) : Bool := c = ' ' || c = '\n' || c = '\t' || c = '\r'

/-- The next character after blanks. -/
def peekValue : Reader (Option Char) := fun c =>
  let c := Cursor.skipWhile isBlank c.rest c.line c.column
  (.ok c.rest.head?, c)

/-- Moves past the characters of a word, or fails right after the first other character. -/
def word : List Char → Reader Unit
  | [] => pure ()
  | w :: more => do
    match ← peek with
    | none => failHere .endInValue
    | some x => if x = w then do skip; word more else failNext .expectedWord

/-- Moves past decimal digits and gives them. -/
def digits : Reader (List Char) := fun c =>
  (.ok (c.rest.takeWhile Char.isDigit), Cursor.skipWhile Char.isDigit c.rest c.line c.column)

end InstallMedia.Json
