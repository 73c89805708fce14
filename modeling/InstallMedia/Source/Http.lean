import InstallMedia.Address
import InstallMedia.Http.Client
import InstallMedia.Source.Basic

/-!
# HTTP sites

A site is only read.  Credentials in its address are taken out of it and sent with each request.
Names are added below the path of the address, segment by segment, so that no name is taken for an
address of its own.

## Main definitions

* `HttpSource`, `HttpSource.ofAddress`
* `HttpSource.urlFor`: the address of a name
-/

namespace InstallMedia

structure HttpSource where
  /-- The address without credentials. -/
  base : Url
  credentials : Option Credentials
  deriving DecidableEq, Repr

namespace HttpSource

/-- The credentials of an address: none without a user name. -/
def credentialsOf (a : Address) : Except SourceError (Option Credentials) := do
  match ← a.decodedUsername with
  | none => return none
  | some username =>
    let password ← a.decodedPassword
    return some { username, password }

/-- The source of an address, which must name a directory on a host and be only read. -/
def ofAddress [InternationalNames] (address : String) (readOnly : Bool) :
    Except SourceError HttpSource := do
  if !readOnly then throw (.precondition (.mustBeReadOnly address))
  if address.toList.getLast? ≠ some '/' then
    throw (.precondition (.notDirectory "HTTP" address))
  let url ← (Url.parse address).mapError fun fault => .invalidAddress address (.url fault)
  if url.host?.isNone then throw (.invalidAddress address .missingHost)
  let credentials ← credentialsOf (Address.ofUrl url)
  match url.withoutCredentials? with
  | none => throw (.invalidAddress address .credentialsStay)
  | some base => return { base, credentials }

def display (s : HttpSource) : String := "<HTTPAccessor: " ++ s.base.text ++ ">"

/-- The names between the slashes of a path, without slashes before the first. -/
def namesOf (path : String) : List String :=
  (Split.fields (· = '/') (path.toList.dropWhile (· = '/'))).map String.ofList

/-- The address of a name below the base. -/
def urlFor (s : HttpSource) (name : String) : Except SourceError Url := do
  let path ← percentDecode name
  match s.base.path with
  | .opaqueText _ => throw (.invalidAddress s.base.text .cannotBeBase)
  | .segments list =>
    return { s.base with path := .segments (Url.Path.extend s.base.isSpecial list (namesOf path)) }

/-- Opens a name: asks for its address. -/
def openFile [InternationalNames] (name : String) : Operation HttpSource Stream := fun (s, w) =>
  match s.urlFor name with
  | .error e => (.error e, s, w)
  | .ok url =>
    match HttpClient.get s.credentials url w with
    | (.ok feed, w) => (.ok (.feed feed), s, w)
    | (.error fault, w) => (.error (fault.errorFor name), s, w)

instance [InternationalNames] : Source HttpSource where
  readOnly _ := true
  openFile := openFile

end HttpSource

/-- Credentials as they are shown, without the password. -/
def Credentials.display (c : Credentials) : String :=
  "Credentials \x7b username: " ++ Quoted.text c.username ++ ", password: " ++
    Quoted.some? (c.password.map fun _ => Quoted.text "****") ++ " \x7d"

end InstallMedia
