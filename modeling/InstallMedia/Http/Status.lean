/-!
# Statuses of HTTP answers

## Main definitions

* `HttpStatus`, `HttpStatus.ofNat?`
* `HttpStatus.text`: the number and the reason that goes with it
-/

namespace InstallMedia

/-- A status: a number of three digits. -/
structure HttpStatus where
  code : Nat
  three_digits : 100 ≤ code ∧ code ≤ 999
  deriving DecidableEq

namespace HttpStatus

/-- The status of a number, if the number can be one. -/
def ofNat? (n : Nat) : Option HttpStatus :=
  if h : 100 ≤ n ∧ n ≤ 999 then some ⟨n, h⟩ else none

/-- The reasons that go with numbers. -/
def reasons : List (Nat × String) :=
  [(100, "Continue"), (101, "Switching Protocols"), (102, "Processing"), (103, "Early Hints"),
   (200, "OK"), (201, "Created"), (202, "Accepted"), (203, "Non Authoritative Information"),
   (204, "No Content"), (205, "Reset Content"), (206, "Partial Content"), (207, "Multi-Status"),
   (208, "Already Reported"), (226, "IM Used"), (300, "Multiple Choices"),
   (301, "Moved Permanently"), (302, "Found"), (303, "See Other"), (304, "Not Modified"),
   (305, "Use Proxy"), (307, "Temporary Redirect"), (308, "Permanent Redirect"),
   (400, "Bad Request"), (401, "Unauthorized"), (402, "Payment Required"), (403, "Forbidden"),
   (404, "Not Found"), (405, "Method Not Allowed"), (406, "Not Acceptable"),
   (407, "Proxy Authentication Required"), (408, "Request Timeout"), (409, "Conflict"),
   (410, "Gone"), (411, "Length Required"), (412, "Precondition Failed"),
   (413, "Payload Too Large"), (414, "URI Too Long"), (415, "Unsupported Media Type"),
   (416, "Range Not Satisfiable"), (417, "Expectation Failed"), (418, "I'm a teapot"),
   (421, "Misdirected Request"), (422, "Unprocessable Entity"), (423, "Locked"),
   (424, "Failed Dependency"), (425, "Too Early"), (426, "Upgrade Required"),
   (428, "Precondition Required"), (429, "Too Many Requests"),
   (431, "Request Header Fields Too Large"), (451, "Unavailable For Legal Reasons"),
   (500, "Internal Server Error"), (501, "Not Implemented"), (502, "Bad Gateway"),
   (503, "Service Unavailable"), (504, "Gateway Timeout"), (505, "HTTP Version Not Supported"),
   (506, "Variant Also Negotiates"), (507, "Insufficient Storage"), (508, "Loop Detected"),
   (510, "Not Extended"), (511, "Network Authentication Required")]

/-- The reason that goes with a status. -/
def reason (s : HttpStatus) : String :=
  (reasons.lookup s.code).getD "<unknown status code>"

/-- The status as a message shows it. -/
def text (s : HttpStatus) : String := s!"{s.code} {s.reason}"

/-- Whether a request with this status succeeded. -/
def isSuccess (s : HttpStatus) : Bool := 200 ≤ s.code && s.code ≤ 299

def ok : HttpStatus := ⟨200, by decide⟩

/-- The status of a name that the server does not know. -/
def notFound : HttpStatus := ⟨404, by decide⟩

/-- Whether an answer with this status can send the request elsewhere. -/
def isRedirect (s : HttpStatus) : Bool := [301, 302, 303, 307, 308].contains s.code

end HttpStatus

end InstallMedia
