import InstallMedia.Stream.Sink

/-!
# Gauged sinks

A gauged sink has room for so many bytes, takes so many at a time, and counts what is asked of it.

## Main definitions

* `Gauge`: the bounds of such a sink
* `Gauge.Tally`: what it has taken and how often it was asked
* `Gauge.sink`: the sink
-/

namespace InstallMedia

/-- The bounds of a sink. -/
structure Gauge where
  /-- The number of bytes for which there is room. -/
  room : Option Nat
  /-- The number of bytes that one write takes at most. -/
  step : Option Nat
  /-- The flush fails. -/
  flushFails : Bool

namespace Gauge

/-- What a gauged sink has taken, and how often it was asked to write and to flush. -/
structure Tally where
  /-- The pieces taken, the last one first. -/
  pieces : List Bytes := []
  held : Nat := 0
  writes : Nat := 0
  flushes : Nat := 0
  /-- Nothing more can be asked of it. -/
  isClosed : Bool := false

def Tally.taken (t : Tally) : Bytes := t.pieces.reverse.flatten

/-- The first bytes, up to a bound if there is one. -/
def within (bound : Option Nat) (bytes : Bytes) : Bytes :=
  match bound with
  | none => bytes
  | some bound => bytes.take bound

/-- The bytes that the next write takes, or nothing when the sink is full. -/
def portion (gauge : Gauge) (held : Nat) (bytes : Bytes) : Option Bytes :=
  match gauge.room with
  | none => some (within gauge.step bytes)
  | some room =>
    if room ≤ held then none else some ((within gauge.step bytes).take (room - held))

/-- The fault of a write into a full sink. -/
def full : IoFault := ⟨.other, "sink full"⟩

/-- The fault of a flush that fails. -/
def flushFailed : IoFault := ⟨.other, "flush failed"⟩

def write (gauge : Gauge) (t : Tally) (bytes : Bytes) : Except IoFault Nat × Tally :=
  match gauge.portion t.held bytes with
  | none => (.error full, { t with writes := t.writes + 1 })
  | some piece =>
    (.ok piece.length,
      { t with
        pieces := piece :: t.pieces
        held := t.held + piece.length
        writes := t.writes + 1 })

/-- The sink is given up. -/
def close (t : Tally) : Tally := { t with isClosed := true }

def sink (gauge : Gauge) : Sink Tally where
  write := gauge.write
  flush t :=
    (if gauge.flushFails then .error flushFailed else .ok (), { t with flushes := t.flushes + 1 })
  patience _ := 0
  patience_lt s bytes cause s' h hi := by
    unfold write at h
    split at h
    · obtain ⟨rfl, -⟩ : full = cause ∧ _ := by simpa using h
      exact absurd hi (by decide)
    · simp at h

end Gauge

end InstallMedia
