import InstallMedia.Http.Status

/-!
# Failed HTTP requests

## Main definitions

* `HttpFault`: why a request brought no content
* `HttpFault.message`, `HttpFault.status?`
-/

namespace InstallMedia

/-- Why a request brought no content. -/
inductive HttpFault where
  /-- No answer came. -/
  | noAnswer (url : String)
  /-- The address cannot be asked for. -/
  | unsupported (url : String)
  /-- The request was sent elsewhere too often. -/
  | tooManyRedirects (url : String)
  /-- The answer was no success. -/
  | refused (url : String) (answer : HttpStatus)

namespace HttpFault

def message : HttpFault → String
  | noAnswer url => s!"HTTP error: error sending request for url ({url})"
  | unsupported url => s!"HTTP error: builder error for url ({url})"
  | tooManyRedirects url => s!"HTTP error: error following redirect for url ({url})"
  | refused url answer => s!"GET {url} returned {answer.text}"

/-- The status of the answer, if one came. -/
def status? : HttpFault → Option HttpStatus
  | refused _ answer => some answer
  | _ => none

end HttpFault

end InstallMedia
