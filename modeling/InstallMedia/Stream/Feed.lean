import InstallMedia.Fault
import InstallMedia.Text.Utf8

/-!
# Feeds

A feed is what a stream gives to those who read it: pieces of bytes and faults, in order.  An empty
piece is an end; so is the end of the feed.  A reader asks for at most so many bytes at a time, and
`Feed.limited` is the feed as such a reader sees it.

## Main definitions

* `ReadEvent`, `Feed`
* `Feed.limited`: the feed seen through reads of a bounded size
* `Feed.gather`: all that a reader gets who reads to the end
* `Feed.take`: all that a reader gets who stops after so many bytes
-/

namespace InstallMedia

/-- What one read of a stream gives. -/
inductive ReadEvent where
  | chunk (bytes : Bytes)
  | fault (cause : IoFault)
  deriving DecidableEq, Repr

/-- What the successive reads of a stream give. -/
abbrev Feed := List ReadEvent

namespace Feed

def size (feed : Feed) : Nat :=
  feed.foldl (fun n event => match event with | .chunk bytes => n + bytes.length | .fault _ => n) 0

def ofBytes (bytes : Bytes) : Feed := [.chunk bytes]

/-- Bytes cut into pieces of `size + 1` bytes, the last one shorter; no bytes are one empty
piece. -/
def pieces (size : Nat) (bytes : Bytes) : List Bytes :=
  if bytes.length ≤ size + 1 then [bytes]
  else bytes.take (size + 1) :: pieces size (bytes.drop (size + 1))
termination_by bytes.length
decreasing_by simp only [List.length_drop]; omega

/-- The feed as a reader sees it who asks for `size + 1` bytes at a time. -/
def limited (size : Nat) (feed : Feed) : Feed :=
  feed.flatMap fun
    | .chunk bytes => (pieces size bytes).map .chunk
    | .fault cause => [.fault cause]

/-- The bytes before the end of a feed, and the feed after it.  Interruptions are passed over; any
other fault ends the reading with nothing. -/
def gatherFrom (before : List Bytes) : Feed → Except IoFault Bytes × Feed
  | [] => (.ok before.reverse.flatten, [])
  | .chunk [] :: rest => (.ok before.reverse.flatten, rest)
  | .chunk bytes :: rest => gatherFrom (bytes :: before) rest
  | .fault cause :: rest =>
    if cause.isInterrupted then gatherFrom before rest else (.error cause, rest)

/-- All the bytes up to the end of a feed, and the feed after it. -/
def gather (feed : Feed) : Except IoFault Bytes × Feed :=
  gatherFrom [] feed

/-- The first bytes of a feed, at most `limit`, and the feed after them. -/
def takeFrom (before : List Bytes) (limit : Nat) : Feed → Except IoFault Bytes × Feed
  | [] => (.ok before.reverse.flatten, [])
  | .chunk bytes :: rest =>
    if limit = 0 then (.ok before.reverse.flatten, .chunk bytes :: rest)
    else if bytes = [] then (.ok before.reverse.flatten, rest)
    else
      match bytes.drop limit with
      | [] => takeFrom (bytes :: before) (limit - bytes.length) rest
      | left => (.ok (bytes.take limit :: before).reverse.flatten, .chunk left :: rest)
  | .fault cause :: rest =>
    if limit = 0 then (.ok before.reverse.flatten, .fault cause :: rest)
    else if cause.isInterrupted then takeFrom before limit rest
    else (.error cause, rest)

/-- The bytes up to the end of a feed, but at most `limit` of them, and the feed after them. -/
def take (limit : Nat) (feed : Feed) : Except IoFault Bytes × Feed :=
  takeFrom [] limit feed

end Feed

end InstallMedia
