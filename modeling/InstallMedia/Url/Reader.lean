import InstallMedia.Url.DrivePath

/-!
# Reading addresses

An address is read from left to right.  Blanks and control characters at its ends are left out, and
so are tabs and line ends anywhere.  The scheme decides the rest: a special scheme has an authority
whatever the number of slashes, a file has a host only after two of them, and under any other scheme
two slashes begin an authority, one begins a path, and none begins opaque text.

## Main definitions

* `Url.scheme?`: the scheme, and what follows its colon
* `Url.parse`: an address in parts, or why the text is none
-/

namespace InstallMedia.Url

/-! ## Characters -/

/-- Whether a character is left out at the ends of an address. -/
def isOuterBlank (c : Char) : Bool := c.toNat ≤ 0x20

/-- The characters of an address between the blanks at its ends. -/
def trimmed (s : String) : List Char := Split.trim isOuterBlank s.toList

/-- Whether a character may stand in a scheme. -/
def isSchemeChar (c : Char) : Bool := c.isAlphanum || c = '+' || c = '-' || c = '.'

/-- Whether a character ends an authority. -/
def endsAuthority (special : Bool) (c : Char) : Bool :=
  c = '/' || c = '?' || c = '#' || (special && c = '\\')

/-- Whether a character ends a path. -/
def endsPath (c : Char) : Bool := c = '?' || c = '#'

/-! ## Scheme -/

/-- The lower-cased characters before a colon, and what follows it. -/
def schemeTail? : List Char → Option (List Char × List Char)
  | [] => none
  | ':' :: rest => some ([], rest)
  | c :: rest =>
    if Path.isInnerBlank c then schemeTail? rest
    else if isSchemeChar c then
      (schemeTail? rest).map fun (scheme, rest) => (c.toLower :: scheme, rest)
    else none

/-- The scheme, and what follows its colon. -/
def scheme? : List Char → Option (String × List Char)
  | [] => none
  | c :: rest =>
    if c.isAlpha then
      (schemeTail? (c :: rest)).map fun (scheme, rest) => (String.ofList scheme, rest)
    else none

/-! ## Authority -/

/-- User name and password as an address holds them. -/
def credentials (userinfo : List Char) : Authority :=
  match Split.atFirst? (· = ':') userinfo with
  | none => { username := String.ofList (Percent.encodeChars .userinfo userinfo) }
  | some (username, password) =>
    { username := String.ofList (Percent.encodeChars .userinfo username)
      password := if password = [] then none
        else some (String.ofList (Percent.encodeChars .userinfo password)) }

/-- Credentials, if there are any, and what follows them. -/
def readCredentials (special : Bool) (cs : List Char) :
    Except UrlFault (Authority × List Char) :=
  let authority := cs.takeWhile (!endsAuthority special ·)
  let rest := cs.dropWhile (!endsAuthority special ·)
  -- User names and passwords may hold the mark, so the last one ends them.
  match Split.atLast? (· = '@') authority with
  | none => .ok ({}, cs)
  | some (userinfo, after) =>
    if userinfo = [] ∧ after = [] ∧ rest ≠ [] then .error .emptyHost
    else .ok (credentials userinfo, after ++ rest)

/-- The characters of a host, and what follows them.  Colons in brackets belong to the host. -/
def hostChars (special bracketed : Bool) : List Char → List Char × List Char
  | [] => ([], [])
  | c :: rest =>
    if (c = ':' && !bracketed) || endsAuthority special c then ([], c :: rest)
    else
      let bracketed := if c = '[' then true else if c = ']' then false else bracketed
      let (host, rest) := hostChars special bracketed rest
      (c :: host, rest)

/-- The digits of a port, and what follows them. -/
def readPort (cs : List Char) : Except UrlFault (Option Nat × List Char) :=
  let digits := cs.takeWhile Char.isDigit
  let rest := cs.dropWhile Char.isDigit
  let port := digits.foldl (fun n c => n * 10 + (c.toNat - 0x30)) 0
  if 65535 < port then .error .port
  else if (rest.head?.map (endsAuthority true)).getD true then
    .ok (if digits = [] then none else some port, rest)
  else .error .port

/-- Host and port, and what follows them. -/
def readHost [InternationalNames] (scheme : String) (cs : List Char) :
    Except UrlFault (Option Host × Option Nat × List Char) := do
  let special := isSpecialScheme scheme
  let (hostText, rest) := hostChars special false cs
  if special && hostText = [] then throw .emptyHost
  let host ← if special then some <$> Host.ofSpecial hostText else Host.ofOpaque hostText
  match rest with
  | ':' :: rest =>
    -- A port needs a host, under every scheme.
    if host.isNone then throw .emptyHost
    let (port, rest) ← readPort rest
    return (host, if port = defaultPort? scheme then none else port, rest)
  | rest => return (host, none, rest)

/-- The authority, and what follows it. -/
def readAuthority [InternationalNames] (scheme : String) (cs : List Char) :
    Except UrlFault (Authority × List Char) := do
  let (credentials, rest) ← readCredentials (isSpecialScheme scheme) cs
  let (host, port, rest) ← readHost scheme rest
  if host.isNone && (credentials.username ≠ "" || credentials.password.isSome) then
    throw .emptyHost
  return ({ credentials with host, port }, rest)

/-! ## Path, query and fragment -/

/-- Query and fragment. -/
def readEnd (scheme : String) : List Char → Option String × Option String
  | '?' :: rest =>
    let set := if isSpecialScheme scheme then Percent.Set.specialQuery else Percent.Set.query
    let query := String.ofList (Percent.encodeChars set (rest.takeWhile (· ≠ '#')))
    match rest.dropWhile (· ≠ '#') with
    | [] => (some query, none)
    | _ :: fragment => (some query, some (String.ofList (Percent.encodeChars .fragment fragment)))
  | '#' :: fragment => (none, some (String.ofList (Percent.encodeChars .fragment fragment)))
  | _ => (none, none)

/-- An address from its scheme, its authority, its path and the text after the path. -/
def assemble (scheme : String) (authority : Option Authority) (path : Path) (rest : List Char) :
    Url :=
  let (query, fragment) := readEnd scheme rest
  { scheme, authority, path, query, fragment }

/-- An address whose path begins with the first of the characters. -/
def withPath (scheme : String) (authority : Option Authority) (cs : List Char) : Url :=
  let text := cs.takeWhile (!endsPath ·)
  let rest := cs.dropWhile (!endsPath ·)
  let special := isSpecialScheme scheme
  let segments :=
    match text with
    -- Under a special scheme there is always a path.
    | [] => if special then [[]] else []
    | c :: after =>
      Path.readFrom special [] (if Path.isSeparator special c then after else c :: after)
  assemble scheme authority (.ofChars segments) rest

/-- The address of a file on a host.  A file on a drive has none. -/
def withDrivePath (host : Option Host) (cs : List Char) : Url :=
  let path := DrivePath.read (cs.takeWhile (!endsPath ·))
  let rest := Path.withoutInnerBlanks (cs.dropWhile (!endsPath ·))
  assemble "file" (some { host := if path.onDrive then none else host }) (.ofChars path.segments)
    rest

/-- What follows a separator, if one comes next. -/
def afterSeparator? (cs : List Char) : Option (List Char) :=
  match cs.dropWhile Path.isInnerBlank with
  | c :: rest => if Path.isSeparator true c then some rest else none
  | [] => none

/-- The address of a file, after two slashes.  Without a host the path is read from its slash on, as
if a segment without a name came first; a drive letter in the place of the host begins the path. -/
def readFileHost [InternationalNames] (cs : List Char) : Except UrlFault Url := do
  let hostText := Path.withoutInnerBlanks (cs.takeWhile (!endsAuthority true ·))
  let rest := cs.dropWhile (!endsAuthority true ·)
  -- What looks like a host may be a drive, and then it is read again as the path.
  if Path.isDriveLetter hostText then return withDrivePath none cs
  if hostText = [] then return withDrivePath none rest
  let host ← Host.ofSpecial hostText
  if host = .domain "localhost" then return withDrivePath none rest
  return withDrivePath (some host) ((afterSeparator? rest).getD rest)

/-- The address of a file, after its colon. -/
def readFile [InternationalNames] (cs : List Char) : Except UrlFault Url :=
  match afterSeparator? cs with
  | none => .ok (withDrivePath none cs)
  | some rest =>
    match afterSeparator? rest with
    | none => .ok (withDrivePath none rest)
    | some rest => readFileHost rest

/-- The address under a scheme that is not `file`, after its colon. -/
def readOther [InternationalNames] (scheme : String) (cs : List Char) : Except UrlFault Url :=
  if isSpecialScheme scheme then do
    let (authority, rest) ← readAuthority scheme (cs.dropWhile (Path.isSeparator true))
    return withPath scheme (some authority) rest
  else
    match cs with
    | '/' :: '/' :: rest => do
      let (authority, rest) ← readAuthority scheme rest
      return withPath scheme (some authority) rest
    | '/' :: _ => .ok (withPath scheme none cs)
    | cs =>
      let text := cs.takeWhile (!endsPath ·)
      .ok (assemble scheme none
        (.opaqueText (String.ofList (Percent.encodeChars .controls text)))
        (cs.dropWhile (!endsPath ·)))

/-- The address under a scheme, after its colon. -/
def readAfterScheme [InternationalNames] (scheme : String) (cs : List Char) : Except UrlFault Url :=
  if scheme = "file" then readFile cs else readOther scheme (Path.withoutInnerBlanks cs)

/-- The parts of an address, or why the text is none. -/
def parse [InternationalNames] (s : String) : Except UrlFault Url :=
  match scheme? (trimmed s) with
  | none => .error .relative
  | some (scheme, rest) => readAfterScheme scheme rest

end InstallMedia.Url
