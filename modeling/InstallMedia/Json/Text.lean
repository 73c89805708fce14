import InstallMedia.Json.Cursor
import InstallMedia.Text.Percent

/-!
# Texts of JSON text

A text stands between double quotes.  A backslash begins an escape; characters outside the basic
plane may be escaped as two surrogates, which must stand together.

## Main definitions

* `Json.text`: reads a text after its first quote
* `Json.skipText`: passes over a text after its first quote
* `Json.escaped`: a text between quotes
-/

namespace InstallMedia.Json

/-! ## Reading -/

/-- The character of a short escape. -/
def shortEscape? : Char → Option Char
  | '"' => some '"'
  | '\\' => some '\\'
  | '/' => some '/'
  | 'b' => some (Char.ofNat 0x08)
  | 'f' => some (Char.ofNat 0x0C)
  | 'n' => some '\n'
  | 'r' => some '\r'
  | 't' => some '\t'
  | _ => none

/-- The value of four hexadecimal digits. -/
def fourDigits? (cs : List Char) : Option Nat :=
  match cs with
  | [a, b, c, d] => do
    let a ← Percent.hexValue? a
    let b ← Percent.hexValue? b
    let c ← Percent.hexValue? c
    let d ← Percent.hexValue? d
    some (((a * 16 + b) * 16 + c) * 16 + d)
  | _ => none

/-- Reads four hexadecimal digits.  Fewer than four bytes are an end inside the text. -/
def fourDigits : Reader Nat := fun c =>
  if (Utf8.encodeChars (c.rest.take 4)).length < 4 then
    failHere .endInString (c.rest.foldl (fun c _ => c.advance) c)
  else
    match fourDigits? (c.rest.take 4) with
    | none => failAfter 4 .invalidEscape c
    | some n => (.ok n, c.advance.advance.advance.advance)

/-- Whether a number is the first of two surrogates. -/
def isLeading (n : Nat) : Bool := 0xD800 ≤ n && n ≤ 0xDBFF

/-- Whether a number is the second of two surrogates. -/
def isTrailing (n : Nat) : Bool := 0xDC00 ≤ n && n ≤ 0xDFFF

/-- Reads the character that must stand between two surrogates. -/
def betweenSurrogates (wanted : Char) : Reader Unit := do
  match ← peek with
  | none => failHere .endInString
  | some c => if c = wanted then skip else failNext .unfinishedSurrogates

/-- Reads the character of a numeric escape after its letter. -/
def numericEscape : Reader Char := do
  let n ← fourDigits
  if isTrailing n then failHere .loneSurrogate
  else if isLeading n then do
    -- The second surrogate must be escaped as well.
    betweenSurrogates '\\'
    betweenSurrogates 'u'
    let m ← fourDigits
    if isTrailing m then
      pure (Char.ofNat ((n - 0xD800) * 0x400 + (m - 0xDC00) + 0x10000))
    else failHere .loneSurrogate
  else pure (Char.ofNat n)

/-- Reads the character of an escape after its backslash. -/
def escape : Reader Char := do
  match ← peek with
  | none => failHere .endInString
  | some 'u' => do skip; numericEscape
  | some c =>
    match shortEscape? c with
    | some x => do skip; pure x
    | none => failNext .invalidEscape

/-- Whether a character cannot stand in a text as it is. -/
def isControl (c : Char) : Bool := c.toNat < 0x20

/-- Reads the characters up to the closing quote, `before` having been read: at most `fuel`
steps. -/
def textFrom (before : List Char) : (fuel : Nat) → Reader String
  | 0 => failHere .endInString
  | fuel + 1 => do
    match ← peek with
    | none => failHere .endInString
    | some c =>
      if c = '"' then do skip; pure (String.ofList before.reverse)
      else if c = '\\' then do
        skip
        let x ← escape
        textFrom (x :: before) fuel
      else if isControl c then failNext .controlCharacter
      else do skip; textFrom (c :: before) fuel

/-- Reads a text after its first quote. -/
def text : Reader String := fun c => textFrom [] (c.rest.length + 1) c

/-- Passes over an escape after its backslash. -/
def skipEscape : Reader Unit := do
  match ← peek with
  | none => failHere .endInString
  | some 'u' => do
    skip
    let _ ← fourDigits
    pure ()
  | some c => if (shortEscape? c).isSome then skip else failNext .invalidEscape

/-- Passes over the characters up to the closing quote: at most `fuel` steps. -/
def skipTextFrom : (fuel : Nat) → Reader Unit
  | 0 => failHere .endInString
  | fuel + 1 => do
    match ← peek with
    | none => failHere .endInString
    | some c =>
      if c = '"' then skip
      else if c = '\\' then do
        skip
        skipEscape
        skipTextFrom fuel
      else if isControl c then failHere .controlCharacter
      else do skip; skipTextFrom fuel

/-- Passes over a text after its first quote. -/
def skipText : Reader Unit := fun c => skipTextFrom (c.rest.length + 1) c

/-! ## Writing -/

/-- A lower-case hexadecimal digit. -/
def lowerDigit (n : Nat) : Char :=
  if n < 10 then Char.ofNat (0x30 + n) else Char.ofNat (0x61 + (n - 10))

/-- A character as it stands in a text. -/
def escapedChar (c : Char) : List Char :=
  if c = '"' then ['\\', '"']
  else if c = '\\' then ['\\', '\\']
  else if c = Char.ofNat 0x08 then ['\\', 'b']
  else if c = Char.ofNat 0x0C then ['\\', 'f']
  else if c = '\n' then ['\\', 'n']
  else if c = '\r' then ['\\', 'r']
  else if c = '\t' then ['\\', 't']
  else if isControl c then
    ['\\', 'u', '0', '0', lowerDigit (c.toNat / 16), lowerDigit (c.toNat % 16)]
  else [c]

def escaped (s : String) : String :=
  String.ofList ('"' :: s.toList.flatMap escapedChar ++ ['"'])

end InstallMedia.Json
