import InstallMedia.Http.Status
import InstallMedia.Stream.Feed
import InstallMedia.Text.Base64

/-!
# Requests and answers

## Main definitions

* `Credentials`: who asks; shown without the password
* `HttpRequest`, `HttpAnswer`
-/

namespace InstallMedia

/-- Who asks. -/
structure Credentials where
  username : String
  password : Option String
  deriving DecidableEq, Repr

def Credentials.header (c : Credentials) : String :=
  "Basic " ++ Base64.encode (Utf8.encode (c.username ++ ":" ++ c.password.getD ""))

/-- A request for what an address names. -/
structure HttpRequest where
  url : String
  /-- The part of it that the server is told. -/
  target : String
  /-- The header that says who asks, if it is sent. -/
  authorization : Option String
  deriving DecidableEq, Repr

structure HttpAnswer where
  status : HttpStatus
  /-- Where the request should go instead. -/
  location : Option String
  body : Feed

end InstallMedia
