import InstallMedia.Text.Utf8

/-!
# Percent-encoding

An address writes a byte as `%` and two hexadecimal digits.  Which characters are written so
depends on the place: each `Set` names the characters that one place does not carry literally.

## Main definitions

* `Percent.Set`, `Percent.encode`: writing under a set
* `Percent.decodeBytes`: the bytes meant; a `%` without two digits after it stands for itself
* `Percent.decode`: the text meant, which may fail to be UTF-8
-/

namespace InstallMedia.Percent

/-! ## Sets -/

/-- The characters that a place of an address does not carry literally. -/
abbrev Set := Char → Bool

/-- Control characters and all that is not ASCII: no place carries them. -/
def Set.controls : Set := fun c => c.toNat < 0x20 || 0x7E < c.toNat

/-- A set and further characters. -/
def Set.add (set : Set) (more : List Char) : Set := fun c => set c || more.contains c

def Set.fragment : Set := Set.controls.add [' ', '"', '<', '>', (Char.ofNat 0x60)]

def Set.path : Set := Set.fragment.add ['#', '?', '\x7b', '\x7d']

/-- The set of a user name or a password. -/
def Set.userinfo : Set :=
  Set.path.add ['/', ':', ';', '=', '@', '[', '\\', ']', '^', '|']

/-- The set of one path segment, in which neither a slash nor a percent sign can be written. -/
def Set.pathSegment : Set := Set.path.add ['/', '%']

/-- The set of one path segment where a backslash separates segments too. -/
def Set.specialPathSegment : Set := Set.pathSegment.add ['\\']

def Set.query : Set := Set.controls.add [' ', '"', '#', '<', '>']

/-- The set of a query under a special scheme. -/
def Set.specialQuery : Set := Set.query.add ['\'']

/-! ## Digits -/

/-- The upper-case hexadecimal digit of a number below sixteen. -/
def hexDigit (n : Nat) : Char :=
  if n < 10 then Char.ofNat (0x30 + n) else Char.ofNat (0x41 + (n - 10))

/-- The value of a hexadecimal digit, of either case. -/
def hexValue? (c : Char) : Option Nat :=
  if '0' ≤ c ∧ c ≤ '9' then some (c.toNat - 0x30)
  else if 'a' ≤ c ∧ c ≤ 'f' then some (c.toNat - 0x61 + 10)
  else if 'A' ≤ c ∧ c ≤ 'F' then some (c.toNat - 0x41 + 10)
  else none

/-! ## Writing -/

/-- A byte as a percent sign and two digits. -/
def encodeByte (b : UInt8) : List Char :=
  ['%', hexDigit (b.toNat / 16), hexDigit (b.toNat % 16)]

/-- A character, literally or as its bytes. -/
def encodeChar (set : Set) (c : Char) : List Char :=
  if set c then (Utf8.encodeChar c).flatMap encodeByte else [c]

def encodeChars (set : Set) (cs : List Char) : List Char :=
  cs.flatMap (encodeChar set)

def encode (set : Set) (s : String) : String :=
  String.ofList (encodeChars set s.toList)

/-! ## Reading -/

/-- The byte of two hexadecimal digits. -/
def byte? (high low : Char) : Option UInt8 := do
  let h ← hexValue? high
  let l ← hexValue? low
  return UInt8.ofNat (h * 16 + l)

/-- The bytes that encoded characters mean.  A percent sign that two digits do not follow means
itself. -/
def decodeBytes : List Char → Bytes
  | [] => []
  | '%' :: high :: low :: rest =>
    match byte? high low with
    | some b => b :: decodeBytes rest
    -- Only the percent sign is passed: another one may be next.
    | none => 0x25 :: decodeBytes (high :: low :: rest)
  | c :: rest => Utf8.encodeChar c ++ decodeBytes rest

/-- The text that an encoded text means, or the first place where its bytes are not UTF-8. -/
def decode (s : String) : Except Utf8.Fault String :=
  Utf8.decode (decodeBytes s.toList)

end InstallMedia.Percent
