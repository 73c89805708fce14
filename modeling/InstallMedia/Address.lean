import InstallMedia.Error
import InstallMedia.Url.Reader

/-!
# Addresses of sources

A source is named by an address `scheme://[user[:password]@]host[:port]/path`.  Its parts stay
percent-encoded as they were written; they are decoded where they are used.

## Main definitions

* `Address`, `Address.parse`, `Address.ofUrl`
* `Address.decodedUsername`, `Address.decodedPassword`, `Address.decodedDirectory`
* `Address.schemeOf?`, `Address.stripScheme`: the scheme of a text, and the text without it
-/

namespace InstallMedia

/-- The parts of an address, percent-encoded. -/
structure Address where
  scheme : String
  username : Option String
  password : Option String
  hostname : Option String
  port : Option Nat
  path : String
  deriving DecidableEq, Repr

/-- The text that an encoded text means. -/
def percentDecode (encoded : String) : Except SourceError String :=
  (Percent.decode encoded).mapError fun fault => .invalidAddress encoded (.encoding fault)

namespace Address

/-- The parts of an address that has been read. -/
def ofUrl (url : Url) : Address where
  scheme := url.scheme
  username := if url.username = "" then none else some url.username
  password := url.password?
  hostname := url.host?.map Host.bare
  port := url.port?
  path := url.path.text

/-- The parts of an address. -/
def parse [InternationalNames] (address : String) : Except SourceError Address :=
  match Url.parse address with
  | .ok url => .ok (ofUrl url)
  | .error fault => .error (.invalidAddress address (.url fault))

/-- Decodes a part that may be absent. -/
def decodePart : Option String → Except SourceError (Option String)
  | none => .ok none
  | some encoded => (percentDecode encoded).map some

def decodedUsername (a : Address) : Except SourceError (Option String) := decodePart a.username

def decodedPassword (a : Address) : Except SourceError (Option String) := decodePart a.password

/-- The path without its first slash. -/
def encodedDirectory (a : Address) : String :=
  match a.path.toList with
  | '/' :: rest => String.ofList rest
  | path => String.ofList path

/-- The directory meant: the path without its first slash. -/
def decodedDirectory (a : Address) : Except SourceError String :=
  percentDecode a.encodedDirectory

/-! ## Schemes of texts -/

/-- What stands between a scheme and the rest of an address. -/
def schemeMark : List Char := [':', '/', '/']

/-- Whether characters can be a scheme. -/
def isScheme (cs : List Char) : Bool :=
  (cs.head?.map Char.isAlpha).getD false && cs.all Url.isSchemeChar

/-- The lower-cased scheme of a text of the form `scheme://…`. -/
def schemeOf? (address : String) : Option String := do
  let (scheme, _) ← Split.around? schemeMark address.toList
  if isScheme scheme then some (String.ofList (scheme.map Char.toLower)) else none

/-- A text without `scheme://` before it, if it stands there. -/
def stripScheme (scheme address : String) : String :=
  match Split.strip? (scheme.toList ++ schemeMark) address.toList with
  | some rest => String.ofList rest
  | none => address

end Address

end InstallMedia
