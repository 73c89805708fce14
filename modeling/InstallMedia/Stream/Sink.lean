import InstallMedia.Fault
import InstallMedia.Text.Utf8

/-!
# Sinks

A sink takes bytes.  One write may take only a first part of what it is given, or fail; to write
all of it, the rest is written again, and an interrupted write is tried again.  A sink does not
interrupt for ever: `patience` counts the interruptions that can still follow one another.

## Main definitions

* `Sink`: writing and flushing on a state
* `Sink.writeAll`: writing until all is taken
* `Sink.collecting`: the sink that takes all and keeps it
-/

namespace InstallMedia

/-- How bytes are taken.  The state `σ` is whatever the sink keeps. -/
structure Sink (σ : Type) where
  /-- One write: how many of the bytes were taken. -/
  write : σ → Bytes → Except IoFault Nat × σ
  /-- Hands on what was taken. -/
  flush : σ → Except IoFault Unit × σ
  /-- A bound for the interruptions that can follow one another. -/
  patience : σ → Nat
  /-- Every interruption uses up patience. -/
  patience_lt : ∀ (s : σ) (bytes : Bytes) (cause : IoFault) (s' : σ),
    write s bytes = (.error cause, s') → cause.isInterrupted = true → patience s' < patience s

namespace Sink

variable {σ : Type}

/-- Writes until all bytes are taken.  A write that takes nothing of something is a failure. -/
def writeAll (sink : Sink σ) (bytes : Bytes) (s : σ) : Except IoFault Unit × σ :=
  match bytes with
  | [] => (.ok (), s)
  | b :: more =>
    match h : sink.write s (b :: more) with
    | (.ok 0, s) => (.error .writeZero, s)
    | (.ok (n + 1), s) => sink.writeAll (more.drop n) s
    -- After an interruption the same bytes are written again.
    | (.error cause, s') =>
      if hi : cause.isInterrupted = true then
        have := sink.patience_lt s (b :: more) cause s' h hi
        sink.writeAll (b :: more) s'
      else (.error cause, s')
termination_by (bytes.length, sink.patience s)
decreasing_by
  · apply Prod.Lex.left
    simp only [List.length_drop, List.length_cons]
    omega
  · exact Prod.Lex.right _ this

/-- The sink that takes all it is given, and keeps it in order. -/
def collecting : Sink Bytes where
  write kept bytes := (.ok bytes.length, kept ++ bytes)
  flush kept := (.ok (), kept)
  patience _ := 0
  patience_lt := by simp

end Sink

end InstallMedia
