/-!
# Text and its bytes

Text travels as UTF-8.  `encode` writes it; `decode` reads it back and names the first place that
is not UTF-8; `decodeLossy` reads anything and puts one replacement character for each part that
is not UTF-8.  Both readers take one step of the same `front`, which looks at the first character
of a byte sequence.

## Main definitions

* `Bytes`: octets in order
* `Utf8.encode`, `Utf8.decode`, `Utf8.decodeLossy`
* `Utf8.Fault`: where a byte sequence stops being UTF-8, and `Utf8.Fault.message`, its text
-/

namespace InstallMedia

/-- Octets in order. -/
abbrev Bytes := List UInt8

namespace Utf8

/-- The bytes of one character: one to four, by the size of its code point. -/
def encodeChar (c : Char) : Bytes :=
  let v := c.toNat
  if v < 0x80 then [UInt8.ofNat v]
  else if v < 0x800 then [UInt8.ofNat (0xC0 + v / 64), UInt8.ofNat (0x80 + v % 64)]
  else if v < 0x10000 then
    [UInt8.ofNat (0xE0 + v / 4096), UInt8.ofNat (0x80 + v / 64 % 64), UInt8.ofNat (0x80 + v % 64)]
  else
    [UInt8.ofNat (0xF0 + v / 262144), UInt8.ofNat (0x80 + v / 4096 % 64),
      UInt8.ofNat (0x80 + v / 64 % 64), UInt8.ofNat (0x80 + v % 64)]

def encodeChars (cs : List Char) : Bytes :=
  cs.flatMap encodeChar

def encode (s : String) : Bytes :=
  encodeChars s.toList

structure Fault where
  /-- The number of bytes before it, which are UTF-8. -/
  index : Nat
  /-- The number of bytes that begin no character, or nothing when the sequence ends inside a
  character. -/
  length : Option Nat
  deriving DecidableEq, Repr

def Fault.message : Fault → String
  | ⟨index, some length⟩ => s!"invalid utf-8 sequence of {length} bytes from index {index}"
  | ⟨index, none⟩ => s!"incomplete utf-8 byte sequence from index {index}"

/-- What a leading byte announces: the number of bytes that follow it and the range of the first
of them, the only one that is narrower than `0x80` to `0xBF`. -/
structure Lead where
  following : Nat
  low : UInt8
  high : UInt8

/-- The leading bytes of characters of more than one byte. -/
def lead? (b : UInt8) : Option Lead :=
  if b < 0xC2 then none
  else if b < 0xE0 then some ⟨1, 0x80, 0xBF⟩
  else if b = 0xE0 then some ⟨2, 0xA0, 0xBF⟩
  else if b = 0xED then some ⟨2, 0x80, 0x9F⟩
  else if b < 0xF0 then some ⟨2, 0x80, 0xBF⟩
  else if b = 0xF0 then some ⟨3, 0x90, 0xBF⟩
  else if b < 0xF4 then some ⟨3, 0x80, 0xBF⟩
  else if b = 0xF4 then some ⟨3, 0x80, 0x8F⟩
  else none

/-- What stands at the front of a byte sequence. -/
inductive Front where
  /-- A character, written in so many bytes. -/
  | char (c : Char) (width : Nat)
  /-- So many bytes that begin no character. -/
  | invalid (length : Nat)
  /-- The beginning of a character, and no more bytes. -/
  | incomplete
  deriving DecidableEq, Repr

/-- Continues a character of which `seen` bytes with the value `value` have been read, where the
next byte must lie between `low` and `high` and `owed` bytes are owed after it. -/
def continueFront (value seen : Nat) (low high : UInt8) : (owed : Nat) → Bytes → Front
  | _, [] => .incomplete
  | owed, b :: rest =>
    if low ≤ b ∧ b ≤ high then
      let value := value * 64 + (b.toNat - 0x80)
      match owed with
      | 0 => .char (Char.ofNat value) (seen + 1)
      | owed + 1 => continueFront value (seen + 1) 0x80 0xBF owed rest
    else .invalid seen

/-- The front of a byte sequence that begins with `b`. -/
def front (b : UInt8) (rest : Bytes) : Front :=
  if b < 0x80 then .char (Char.ofNat b.toNat) 1
  else
    match lead? b with
    | none => .invalid 1
    | some ⟨following, low, high⟩ =>
      let value := b.toNat - (if following = 1 then 0xC0 else if following = 2 then 0xE0 else 0xF0)
      continueFront value 1 low high (following - 1) rest

/-- Reads UTF-8 of which `index` bytes have gone before.  A character's own bytes are passed over
by `skip`, so that the reading follows the bytes. -/
def decodeFrom (index skip : Nat) : Bytes → Except Fault (List Char)
  | [] => .ok []
  | b :: rest =>
    match skip with
    | skip + 1 => decodeFrom (index + 1) skip rest
    | 0 =>
      match front b rest with
      | .char c width => (decodeFrom (index + 1) (width - 1) rest).map (c :: ·)
      | .invalid length => .error ⟨index, some length⟩
      | .incomplete => .error ⟨index, none⟩

/-- The characters of a UTF-8 byte sequence, or the first place that is not UTF-8. -/
def decodeChars (bytes : Bytes) : Except Fault (List Char) :=
  decodeFrom 0 0 bytes

/-- The text of a UTF-8 byte sequence, or the first place that is not UTF-8. -/
def decode (bytes : Bytes) : Except Fault String :=
  (decodeChars bytes).map String.ofList

/-- The character that stands for bytes that are no text. -/
def replacement : Char := Char.ofNat 0xFFFD

/-- Reads any bytes, the first `skip` of them passed over, with one replacement character for each
part that is no text. -/
def decodeLossyFrom (skip : Nat) : Bytes → List Char
  | [] => []
  | b :: rest =>
    match skip with
    | skip + 1 => decodeLossyFrom skip rest
    | 0 =>
      match front b rest with
      | .char c width => c :: decodeLossyFrom (width - 1) rest
      | .invalid length => replacement :: decodeLossyFrom (length - 1) rest
      | .incomplete => [replacement]

/-- The text of any bytes, with one replacement character for each part that is no text. -/
def decodeLossy (bytes : Bytes) : String :=
  String.ofList (decodeLossyFrom 0 bytes)

end Utf8

end InstallMedia
