import InstallMedia.Stream.Feed
import InstallMedia.Stream.Sink

/-!
# Copying

A copy reads a feed to its end, piece by piece, writes each piece whole before it reads the next,
and flushes the sink after the last one.  Interrupted reads are tried again.  The first fault of a
read, a write or the flush ends the copy.  However it ends, the sink is given up.

## Main definitions

* `copyBlock`: the number of bytes asked for at a time
* `Copy`: how a copy ended
* `copy`: copying a feed into a sink
-/

namespace InstallMedia

/-- The number of bytes that a copy asks for at a time: 256 blocks of 512 bytes. -/
def copyBlock : Nat := 256 * 512

/-- How a copy ended. -/
structure Copy (σ : Type) where
  /-- The number of bytes copied, or the fault that ended the copy. -/
  result : Except IoFault Nat
  /-- What became of the sink. -/
  sink : σ
  /-- What was left of the feed. -/
  left : Feed
  reads : Nat

namespace Copy

variable {σ : Type}

def afterRead (c : Copy σ) : Copy σ := { c with reads := c.reads + 1 }

/-- The end of a copy of so many bytes: the flush. -/
def ending (sink : Sink σ) (copied : Nat) (s : σ) (left : Feed) : Copy σ :=
  match sink.flush s with
  | (.ok (), s) => ⟨.ok copied, s, left, 0⟩
  | (.error cause, s) => ⟨.error cause, s, left, 0⟩

/-- A copy that has ended, with its sink given up. -/
def closed (close : σ → σ) (c : Copy σ) : Copy σ := { c with sink := close c.sink }

/-- Copies the pieces of a feed one by one, `copied` bytes having been copied before. -/
def run (sink : Sink σ) (copied : Nat) : Feed → σ → Copy σ
  | [], s => (ending sink copied s []).afterRead
  -- An empty chunk is the end of a feed, though events may follow it.
  | .chunk [] :: rest, s => (ending sink copied s rest).afterRead
  | .chunk bytes :: rest, s =>
    match sink.writeAll bytes s with
    | (.ok (), s) => (run sink (copied + bytes.length) rest s).afterRead
    | (.error cause, s) => ⟨.error cause, s, rest, 1⟩
  | .fault cause :: rest, s =>
    if cause.isInterrupted then (run sink copied rest s).afterRead
    else ⟨.error cause, s, rest, 1⟩

end Copy

/-- Copies a feed to its end into a sink, which is given up however the copy ends.  What that does
to the sink is `close`; a sink that was only lent stays as it is. -/
def copy {σ : Type} (sink : Sink σ) (feed : Feed) (s : σ) (close : σ → σ := id) :
    Copy σ :=
  (Copy.run sink 0 (feed.limited (copyBlock - 1)) s).closed close

end InstallMedia
