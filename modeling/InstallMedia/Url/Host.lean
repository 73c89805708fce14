import InstallMedia.Text.Percent
import InstallMedia.Text.Split

/-!
# Hosts

The host of an address is a name or a number.  Under a special scheme a name is percent-decoded and
written in lower-case ASCII, and a name that ends in a number is a number of four octets; under any
other scheme a name is opaque.  In brackets stands a number of eight pieces.

What a name of other than ASCII letters is in ASCII is decided by tables that are no part of this
library: they are a class, and what is said of addresses holds for every instance of it.

## Main definitions

* `InternationalNames`: the tables of names that are not plain ASCII
* `Host`, `Host.text` (as an address writes it), `Host.bare` (as a connection wants it)
* `Host.ofSpecial`, `Host.ofOpaque`: reading a host
* `UrlFault`: why a text is no address
-/

namespace InstallMedia

/-- Why a text is no address. -/
inductive UrlFault where
  | emptyHost
  | hostName
  | port
  | ipv4
  | ipv6
  | hostCharacter
  | relative
  deriving DecidableEq, Repr

def UrlFault.message : UrlFault → String
  | emptyHost => "empty host"
  | hostName => "invalid international domain name"
  | port => "invalid port number"
  | ipv4 => "invalid IPv4 address"
  | ipv6 => "invalid IPv6 address"
  | hostCharacter => "invalid domain character"
  | relative => "relative URL without a base"

/-- The names of hosts that are international: what each of them is in ASCII, if it is a name. -/
class InternationalNames where
  ascii? : List Char → Option (List Char)

/-- Without tables no international name is known. -/
instance InternationalNames.unknown : InternationalNames where
  ascii? _ := none

/-- The host of an address. -/
inductive Host where
  | domain (name : String)
  | ipv4 (octets : List Nat)
  | ipv6 (pieces : List Nat)
  deriving DecidableEq, Repr

namespace Host

/-! ## Writing -/

/-- The lower-case hexadecimal digits of a piece. -/
def pieceText (n : Nat) : String := String.ofList (Nat.toDigits 16 n)

def dotted (octets : List Nat) : String :=
  String.intercalate "." (octets.map toString)

/-- The longest run of zeros, as its beginning and its length; the first of several. -/
def longestZeros (pieces : List Nat) : Nat × Nat :=
  let step := fun (best, start, length, index) n =>
    if n = 0 then
      -- A longer run takes the place of the best one, an equally long one does not.
      let (start, length) := if length = 0 then (index, 1) else (start, length + 1)
      (if best.2 < length then (start, length) else best, start, length, index + 1)
    else (best, start, 0, index + 1)
  (pieces.foldl step (((0, 0), 0, 0, 0) : (Nat × Nat) × Nat × Nat × Nat)).1

def colons (pieces : List Nat) : String :=
  String.intercalate ":" (pieces.map pieceText)

/-- Eight pieces, the longest run of at least two zeros left out. -/
def compressed (pieces : List Nat) : String :=
  let (start, length) := longestZeros pieces
  if length < 2 then colons pieces
  else colons (pieces.take start) ++ "::" ++ colons (pieces.drop (start + length))

def text : Host → String
  | domain name => name
  | ipv4 octets => dotted octets
  | ipv6 pieces => "[" ++ compressed pieces ++ "]"

/-- Eight pieces without brackets; those that stand for four octets end in them. -/
def bareIpv6 : List Nat → String
  | [0, 0, 0, 0, 0, 0xFFFF, high, low] =>
    "::ffff:" ++ dotted [high / 256, high % 256, low / 256, low % 256]
  | pieces => compressed pieces

/-- The lower-case letter of an ASCII capital. -/
def lower (s : String) : String := s.map Char.toLower

/-- The host without brackets and in lower case, as a connection wants it. -/
def bare : Host → String
  | domain name => lower name
  | ipv4 octets => dotted octets
  | ipv6 pieces => bareIpv6 pieces

/-! ## Numbers -/

/-- The value of digits in a base, if all of them are digits of that base. -/
def number? (base : Nat) (digits : List Char) : Option Nat :=
  digits.foldlM (fun n c => do
    let d ← Percent.hexValue? c
    if d < base then some (n * base + d) else none) 0

/-- One field of a dotted number: hexadecimal after `0x`, octal after `0`, else decimal. -/
def ipv4Field? : List Char → Option Nat
  | [] => none
  | '0' :: 'x' :: digits | '0' :: 'X' :: digits => number? 16 digits
  | '0' :: d :: digits => number? 8 (d :: digits)
  | digits => number? 10 digits

/-- The fields of a dotted number, without the empty one after a last dot. -/
def ipv4Fields (cs : List Char) : List (List Char) :=
  let fields := Split.fields (· = '.') cs
  if fields.getLast? = some [] ∧ 1 < fields.length then fields.dropLast else fields

/-- Whether the last field of a name is a number, so that the whole name must be one. -/
def endsInNumber (cs : List Char) : Bool :=
  match (ipv4Fields cs).getLast? with
  | none => false
  | some last => (last ≠ [] && last.all Char.isDigit) || (ipv4Field? last).isSome

/-- The octets of a dotted number of one to four fields, of which the last one fills all octets
that are left. -/
def ipv4? (cs : List Char) : Option (List Nat) := do
  let fields := ipv4Fields cs
  if 4 < fields.length then none else
  let numbers ← fields.mapM ipv4Field?
  let front := numbers.dropLast
  let last ← numbers.getLast?
  -- The last field has all the octets that the others leave.
  let owed := 4 - front.length
  if front.any (255 < ·) || Nat.pow 256 owed ≤ last then none else
  some (front ++ (List.range owed).map fun i => last / Nat.pow 256 (owed - 1 - i) % 256)

/-- One piece: one to four hexadecimal digits. -/
def ipv6Piece? (cs : List Char) : Option Nat :=
  if cs = [] ∨ 4 < cs.length then none else number? 16 cs

/-- A decimal number below 256 without leading zeros. -/
def octet? (cs : List Char) : Option Nat :=
  match cs with
  | [] => none
  | ['0'] => some 0
  | '0' :: _ => none
  | cs => do
    let n ← number? 10 cs
    if n < 256 then some n else none

/-- Four octets with dots between them, as two pieces. -/
def ipv6Tail? (cs : List Char) : Option (List Nat) := do
  match ← (Split.fields (· = '.') cs).mapM octet? with
  | [a, b, c, d] => some [a * 256 + b, c * 256 + d]
  | _ => none

/-- Pieces with colons between them, of which the last may be written as four octets. -/
def ipv6Pieces? (octetsAllowed : Bool) (cs : List Char) : Option (List Nat) := do
  let fields := Split.fields (· = ':') cs
  let front ← fields.dropLast.mapM ipv6Piece?
  let last ← fields.getLast?
  let tail ← if octetsAllowed && last.contains '.' then ipv6Tail? last
    else (ipv6Piece? last).map ([·])
  some (front ++ tail)

/-- Pieces that may be none at all. -/
def ipv6Side? (octetsAllowed : Bool) (cs : List Char) : Option (List Nat) :=
  if cs = [] then some [] else ipv6Pieces? octetsAllowed cs

/-- Eight pieces, of which one run of zeros may be left out between two colons. -/
def ipv6? (cs : List Char) : Option (List Nat) :=
  match Split.around? [':', ':'] cs with
  | none => do
    let pieces ← ipv6Pieces? true cs
    if pieces.length = 8 then some pieces else none
  | some (left, right) => do
    -- Octets stand at the very end only, and at least one piece is left out.
    let left ← ipv6Side? false left
    let right ← ipv6Side? true right
    if 7 < left.length + right.length then none
    else some (left ++ List.replicate (8 - left.length - right.length) 0 ++ right)

/-! ## Reading -/

/-- A number in brackets. -/
def ofBrackets (cs : List Char) : Except UrlFault Host :=
  match cs.getLast? with
  | some ']' =>
    match ipv6? cs.dropLast with
    | some pieces => .ok (.ipv6 pieces)
    | none => .error .ipv6
  | _ => .error .ipv6

/-- The characters that no host name holds. -/
def forbidden : List Char :=
  [Char.ofNat 0, '\t', '\n', '\r', ' ', '#', '/', ':', '<', '>', '?', '@', '[', '\\', ']', '^', '|']

/-- Whether a character may stand in a host name under a special scheme. -/
def admitted (c : Char) : Bool :=
  (0x20 < c.toNat && c.toNat < 0x7F) && !forbidden.contains c && c ≠ '%'

/-- Whether a label claims to be the ASCII form of an international one. -/
def isEncodedLabel (label : List Char) : Bool :=
  (label.take 4).map Char.toLower = ['x', 'n', '-', '-']

/-- Whether the tables decide what a name is in ASCII. -/
def isInternational (cs : List Char) : Bool :=
  cs.any (0x7F < ·.toNat) || (Split.fields (· = '.') cs).any isEncodedLabel

/-- The name in lower-case ASCII that characters stand for, if they are a name. -/
def asciiName? [InternationalNames] (cs : List Char) : Option (List Char) :=
  if isInternational cs then InternationalNames.ascii? cs
  else if cs.all admitted then some (cs.map Char.toLower) else none

/-- Reads a host under a special scheme. -/
def ofSpecial [InternationalNames] : List Char → Except UrlFault Host
  | '[' :: rest => ofBrackets rest
  | cs =>
    match (Utf8.decodeChars (Percent.decodeBytes cs)).toOption.bind asciiName? with
    | none => .error .hostName
    | some [] => .error .emptyHost
    | some name =>
      -- A name that looks like a number is a number or nothing.
      if endsInNumber name then
        match ipv4? name with
        | some octets => .ok (.ipv4 octets)
        | none => .error .ipv4
      else .ok (.domain (String.ofList name))

/-- Reads a host under a scheme that is not special; an empty one is none. -/
def ofOpaque : List Char → Except UrlFault (Option Host)
  | [] => .ok none
  | '[' :: rest => (ofBrackets rest).map some
  | cs =>
    if cs.any forbidden.contains then .error .hostCharacter
    else .ok (some (.domain (String.ofList (Percent.encodeChars .controls cs))))

end Host

end InstallMedia
