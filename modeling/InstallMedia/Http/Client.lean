import InstallMedia.Http.Fault
import InstallMedia.Url.Resolve
import InstallMedia.World

/-!
# HTTP requests

A client asks for an address, with its credentials if it has any, and follows the server elsewhere a
limited number of times.  Only success brings content.

## Main definitions

* `HttpClient.get`: the content that an address names
-/

namespace InstallMedia.HttpClient

/-- The number of times that a request is sent elsewhere. -/
def redirectLimit : Nat := 10

/-- The part of an address that the server is told. -/
def target (url : Url) : String :=
  url.path.text ++ (match url.query with | some query => "?" ++ query | none => "")

/-- Whether an address can be asked for. -/
def isSupported (url : Url) : Bool := url.scheme = "http" || url.scheme = "https"

/-- The port that an address means. -/
def effectivePort (url : Url) : Option Nat :=
  url.port?.or (Url.defaultPort? url.scheme)

/-- Whether two addresses are served by the same server. -/
def sameServer (a b : Url) : Bool :=
  a.host? = b.host? && effectivePort a = effectivePort b

/-- The address to which an answer sends a request. -/
def redirection? [InternationalNames] (url : Url) (answer : HttpAnswer) : Option Url :=
  if answer.status.isRedirect then
    answer.location.bind fun location =>
      match Url.resolve url location with
      | .ok next => some next
      | .error _ => none
  else none

/-- Asks for an address and follows the server elsewhere, `left` times at most. -/
def follow [InternationalNames] (authorization : Option String) : (left : Nat) → Url →
    Attempt World HttpFault HttpAnswer
  | left, url => fun w =>
    if !isSupported url then (.error (.unsupported url.text), w)
    else
      match w.ask ⟨url.text, target url, authorization⟩ with
      | (none, w) => (.error (.noAnswer url.text), w)
      | (some answer, w) =>
        match redirection? url answer with
        | none => (.ok answer, w)
        | some next =>
          match left with
          | 0 => (.error (.tooManyRedirects url.text), w)
          | left + 1 =>
            follow (if sameServer url next then authorization else none) left next w

/-- The content that an address names. -/
def get [InternationalNames] (credentials : Option Credentials) (url : Url) :
    Attempt World HttpFault Feed := do
  let answer ← follow (credentials.map Credentials.header) redirectLimit url
  if answer.status.isSuccess then return answer.body
  else Attempt.fail (.refused url.text answer.status)

end InstallMedia.HttpClient
