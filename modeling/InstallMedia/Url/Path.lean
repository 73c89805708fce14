import InstallMedia.Url.Basic

/-!
# Path segments

A path is read segment by segment.  A segment of one dot is left out, a segment of two dots takes
the segment before it away, and either leaves an empty segment behind at the end of the path.  The
dots may be percent-encoded.  A drive letter is never taken away.

## Main definitions

* `Url.Path.isDot`, `Url.Path.isDotDot`: segments that are directions
* `Url.Path.shorten`: the path above
* `Url.Path.resolveFrom`: the segments that raw segments lead to
* `Url.Path.extend`: a path with names added below it
-/

namespace InstallMedia.Url.Path

/-- Whether a character is left out anywhere in an address. -/
def isInnerBlank (c : Char) : Bool := c = '\t' || c = '\n' || c = '\r'

/-- Characters without tabs and line ends. -/
def withoutInnerBlanks (cs : List Char) : List Char := cs.filter (!isInnerBlank ·)

/-- The texts that stand for a dot. -/
def dots : List (List Char) := [['.'], ['%', '2', 'e'], ['%', '2', 'E']]

/-- Whether a segment stands for the place it stands in. -/
def isDot (segment : List Char) : Bool := dots.contains segment

/-- Whether a segment stands for the place above. -/
def isDotDot (segment : List Char) : Bool :=
  dots.any fun first => dots.any fun second => first ++ second = segment

def isDriveLetter : List Char → Bool
  | [letter, mark] => letter.isAlpha && (mark = ':' || mark = '|')
  | _ => false

/-- The segments above. -/
def shorten (segments : List (List Char)) : List (List Char) :=
  match segments.getLast? with
  | none => []
  | some last => if isDriveLetter last then segments else segments.dropLast

/-- Follows raw segments from the segments `above`; the last raw segment stays open. -/
def resolveFrom (above : List (List Char)) : List (List Char) → List (List Char)
  | [] => above ++ [[]]
  | [last] =>
    if isDotDot last then shorten above ++ [[]]
    else if isDot last then above ++ [[]]
    else above ++ [last]
  | segment :: rest =>
    if isDotDot segment then resolveFrom (shorten above) rest
    else if isDot segment then resolveFrom above rest
    else resolveFrom (above ++ [segment]) rest

/-- The characters that separate segments: a slash and, under a special scheme, a backslash. -/
def isSeparator (special : Bool) (c : Char) : Bool := c = '/' || (special && c = '\\')

/-- Reads the text after a path's first slash, from the segments `above`. -/
def readFrom (special : Bool) (above : List (List Char)) (cs : List Char) : List (List Char) :=
  resolveFrom above ((Split.fields (isSeparator special) cs).map (Percent.encodeChars .path))

/-- The path of segments. -/
def ofChars (segments : List (List Char)) : Path :=
  .segments (segments.map String.ofList)

/-! ## Names below a path -/

/-- A path without its last segment if that is empty, so that names can be added below it. -/
def openEnd (segments : List String) : List String :=
  if segments.getLast? = some "" ∧ 1 < segments.length then segments.dropLast else segments

/-- The segment that a name is written as: without tabs and line ends, and percent-encoded. -/
def segmentOf (special : Bool) (name : String) : List Char :=
  Percent.encodeChars (if special then .specialPathSegment else .pathSegment)
    (withoutInnerBlanks name.toList)

/-- Adds one name below a path.  A path of one empty segment takes the name in its place. -/
def extendOne (special : Bool) (segments : List String) (name : String) : List String :=
  if name = "." ∨ name = ".." then segments
  else
    let above := if segments = [""] then [] else segments
    let segment := segmentOf special name
    if isDotDot segment then
      (shorten (above.map String.toList)).map String.ofList ++ [""]
    else if isDot segment then above ++ [""]
    else above ++ [String.ofList segment]

/-- Adds names below a path, each as one segment. -/
def extend (special : Bool) (segments names : List String) : List String :=
  names.foldl (extendOne special) (openEnd segments)

end InstallMedia.Url.Path
