import InstallMedia.Url.Host

/-!
# Addresses in parts

An address has a scheme, perhaps an authority (credentials, host, port), a path, and perhaps a query
and a fragment.  The path is a list of segments, or opaque text under a scheme that gives it no
structure.

## Main definitions

* `Url`, `Url.Authority`, `Url.Path`
* `Url.text`: the address as text
* `Url.withoutCredentials?`
* `Url.isSpecialScheme`, `Url.defaultPort?`: what a scheme decides
-/

namespace InstallMedia

namespace Url

/-- The schemes under which addresses have a host and a structured path. -/
def specialSchemes : List String := ["http", "https", "ws", "wss", "ftp", "file"]

/-- Whether addresses under a scheme have a host and a structured path. -/
def isSpecialScheme (scheme : String) : Bool := specialSchemes.contains scheme

/-- The port of a scheme, which an address leaves out. -/
def defaultPort? : String → Option Nat
  | "http" | "ws" => some 80
  | "https" | "wss" => some 443
  | "ftp" => some 21
  | _ => none

/-- Who is asked for what an address names.  User name and password are percent-encoded. -/
structure Authority where
  username : String := ""
  password : Option String := none
  host : Option Host := none
  port : Option Nat := none
  deriving DecidableEq, Repr

/-- The path of an address, percent-encoded. -/
inductive Path where
  /-- Text without structure. -/
  | opaqueText (text : String)
  /-- Segments, each of them after a slash. -/
  | segments (list : List String)
  deriving DecidableEq, Repr

/-- Segments, each of them after a slash. -/
def Path.joined (list : List String) : String :=
  String.join (list.map ("/" ++ ·))

def Path.text : Path → String
  | .opaqueText text => text
  | .segments list => Path.joined list

/-- The segments of a path; an opaque one has none. -/
def Path.list : Path → List String
  | .opaqueText _ => []
  | .segments list => list

end Url

/-- An address in parts. -/
structure Url where
  scheme : String
  authority : Option Url.Authority
  path : Url.Path
  query : Option String
  fragment : Option String
  deriving DecidableEq, Repr

namespace Url

/-- The percent-encoded user name, empty if there is none. -/
def username (url : Url) : String :=
  match url.authority with
  | none => ""
  | some a => a.username

def password? (url : Url) : Option String := url.authority.bind (·.password)

def host? (url : Url) : Option Host := url.authority.bind (·.host)

/-- The port, if it is not the scheme's own. -/
def port? (url : Url) : Option Nat := url.authority.bind (·.port)

def isSpecial (url : Url) : Bool := isSpecialScheme url.scheme

/-- User name and password as an address writes them. -/
def Authority.userinfo (a : Authority) : String :=
  match a.password with
  | some password => a.username ++ ":" ++ password ++ "@"
  | none => if a.username = "" then "" else a.username ++ "@"

def Authority.text (a : Authority) : String :=
  a.userinfo ++ (a.host.map Host.text).getD "" ++
    (match a.port with | some port => s!":{port}" | none => "")

/-- What stands between the scheme and the path.  A path that could be taken for an authority is
set off by a dot. -/
def authorityText (url : Url) : String :=
  match url.authority with
  | some a => "//" ++ a.text
  | none =>
    match url.path with
    | .segments ("" :: _ :: _) => "/."
    | _ => ""

def text (url : Url) : String :=
  url.scheme ++ ":" ++ url.authorityText ++ url.path.text ++
    (match url.query with | some query => "?" ++ query | none => "") ++
    (match url.fragment with | some fragment => "#" ++ fragment | none => "")

/-- The address without user name and password.  Only an address with a host, and not of a file,
can have them. -/
def withoutCredentials? (url : Url) : Option Url :=
  match url.authority with
  | some a =>
    if a.host.isNone || url.scheme = "file" then none
    else some { url with authority := some { a with username := "", password := none } }
  | none => none

end Url

end InstallMedia
