import InstallMedia.Url.Path

/-!
# Paths of files

The path of a file may begin at a drive.  Its first segment is then a letter and a colon, for which
an address may also write a bar.  A file on a drive has no host.

A path is read field by field, and tabs and line ends in a field are left out of its segment.  They
are seen in one place only: where they follow the colon of a drive, the drive is a segment of its
own, and the name after them is the next one, whatever the name is.

## Main definitions

* `Url.DrivePath`: the path of a file, and whether it begins at a drive
* `Url.DrivePath.follow`: the path that one field leads to
* `Url.DrivePath.read`: the path that a text names
-/

namespace InstallMedia.Url

/-- The path of a file, and whether its first segment is a drive. -/
structure DrivePath where
  segments : List (List Char) := []
  onDrive : Bool := false
  deriving DecidableEq, Repr

namespace DrivePath

/-- The segment of a field. -/
def segment (field : List Char) : List Char :=
  Percent.encodeChars .path (Path.withoutInnerBlanks field)

/-- A drive letter with a colon after it. -/
def withColon : List Char → List Char
  | letter :: _ => [letter, ':']
  | [] => []

/-- A drive and the name after it, of a field in which blanks stand between the two. -/
def detached? (field : List Char) : Option (List Char × List Char) :=
  match field.dropWhile Path.isInnerBlank with
  | [] => none
  | letter :: rest =>
    match rest.dropWhile Path.isInnerBlank with
    | ':' :: blank :: rest =>
      if letter.isAlpha && Path.isInnerBlank blank && segment rest ≠ [] then
        some ([letter, ':'], segment rest)
      else none
    | _ => none

/-- The path that a field without a direction begins. -/
def start (field : List Char) : DrivePath :=
  match detached? field with
  | some (drive, name) => { segments := [drive, name] }
  | none =>
    if Path.isDriveLetter (segment field) then
      { segments := [withColon (segment field)], onDrive := true }
    else { segments := [segment field] }

/-- The path that one field leads to. -/
def follow (path : DrivePath) (field : List Char) : DrivePath :=
  if Path.isDotDot (segment field) then { path with segments := Path.shorten path.segments }
  else if Path.isDot (segment field) then path
  else if path.segments = [] then start field
  else { path with segments := path.segments ++ [segment field] }

/-- Whether a field is a direction, so that the path stays open after it. -/
def isDirection (field : List Char) : Bool :=
  Path.isDotDot (segment field) || Path.isDot (segment field)

/-- The path with an empty last segment. -/
def opened (path : DrivePath) : DrivePath := { path with segments := path.segments ++ [[]] }

/-- The path without empty segments before its first name. -/
def rooted (path : DrivePath) : DrivePath :=
  match path.segments.dropWhile (· = []) with
  | [] => { path with segments := [[]] }
  | segments => { path with segments }

/-- The path that a text names. -/
def read (cs : List Char) : DrivePath :=
  let fields := Split.fields (Path.isSeparator true) cs
  let path := fields.foldl follow {}
  -- A direction leaves the path open, a name does not.
  (if fields.getLast?.any isDirection then path.opened else path).rooted

end DrivePath

end InstallMedia.Url
