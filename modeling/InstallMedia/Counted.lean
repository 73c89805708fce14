import InstallMedia.Attempt

/-!
# Counted resources

A resource that is opened by the first of those who need it and closed by the last.  The count and
the resource are one value, so that a resource is held exactly when the count is above zero.

## Main definitions

* `Counted`: nothing, or a resource with the number of its holders
* `Counted.acquire`, `Counted.release`: one holder more, one holder less
-/

namespace InstallMedia

/-- Nothing, or a resource held once and by so many others. -/
inductive Counted (α : Type) where
  | idle
  | held (resource : α) (others : Nat)
  deriving DecidableEq, Repr

namespace Counted

variable {α σ ε : Type}

/-- The largest number of holders that is counted. -/
def largestCount : Nat := Nat.pow 2 64 - 1

def count : Counted α → Nat
  | idle => 0
  | held _ others => others + 1

def isHeld : Counted α → Bool
  | idle => false
  | held _ _ => true

def resource? : Counted α → Option α
  | idle => none
  | held resource _ => some resource

def update (f : α → α) : Counted α → Counted α
  | idle => idle
  | held resource others => held (f resource) others

/-- One holder more.  Only the first one runs `opening`; if that fails, nothing is held.  Gives the
new count. -/
def acquire (opening : Attempt σ ε α) : Attempt (Counted α × σ) ε Nat
  | (idle, s) =>
    match opening s with
    | (.ok resource, s) => (.ok 1, (held resource 0, s))
    | (.error e, s) => (.error e, (idle, s))
  | (held resource others, s) =>
    -- One more than the largest count is the largest count.
    let count := min (others + 2) largestCount
    (.ok count, (held resource (count - 1), s))

/-- One holder less.  Only the last one runs `closing`, which may change the resource; if it fails,
the resource stays with one holder.  Without a holder nothing happens.  Gives the new count. -/
def release (closing : Attempt (α × σ) ε Unit) : Attempt (Counted α × σ) ε Nat
  | (idle, s) => (.ok 0, (idle, s))
  | (held resource 0, s) =>
    match closing (resource, s) with
    | (.ok (), (_, s)) => (.ok 0, (idle, s))
    | (.error e, (resource, s)) => (.error e, (held resource 0, s))
  | (held resource (others + 1), s) => (.ok (others + 1), (held resource others, s))

@[simp] theorem count_idle : (idle : Counted α).count = 0 := rfl

@[simp] theorem count_held (resource : α) (others : Nat) :
    (held resource others).count = others + 1 := rfl

/-- A resource is held exactly when the count is above zero. -/
theorem isHeld_iff (c : Counted α) : c.isHeld = true ↔ 0 < c.count := by
  cases c <;> simp [isHeld]

end Counted

end InstallMedia
