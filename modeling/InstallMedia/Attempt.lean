/-!
# Attempts

An attempt is a computation on a state that may fail.  A failure keeps what the computation has
done to the state so far: a command once sent stays sent, a file once made stays made.

## Main definitions

* `Attempt`: from a state to an outcome and a state, with its monad
* `Attempt.fail`, `Attempt.ofExcept`, `Attempt.outcome`: raising and catching failures
* `Attempt.mapError`: another account of the same failure
* `Attempt.on`: running on a part of the state
-/

namespace InstallMedia

/-- A computation on a state that may fail.  A failure keeps the state reached. -/
def Attempt (σ ε α : Type) : Type := σ → Except ε α × σ

namespace Attempt

variable {σ τ ε ε' α β : Type}

protected def pure (a : α) : Attempt σ ε α := fun s => (.ok a, s)

/-- One attempt and, if it succeeds, another. -/
protected def bind (x : Attempt σ ε α) (f : α → Attempt σ ε β) : Attempt σ ε β := fun s =>
  match x s with
  | (.ok a, s) => f a s
  | (.error e, s) => (.error e, s)

instance : Monad (Attempt σ ε) where
  pure := Attempt.pure
  bind := Attempt.bind

def fail (e : ε) : Attempt σ ε α := fun s => (.error e, s)

/-- Does nothing, with an outcome known beforehand. -/
def ofExcept (x : Except ε α) : Attempt σ ε α := fun s => (x, s)

def get : Attempt σ ε σ := fun s => (.ok s, s)

/-- Puts a state in place of the state. -/
def set (s : σ) : Attempt σ ε Unit := fun _ => (.ok (), s)

def modify (f : σ → σ) : Attempt σ ε Unit := fun s => (.ok (), f s)

/-- Changes the state and cannot fail. -/
def ofState (f : σ → α × σ) : Attempt σ ε α := fun s => ((.ok (f s).1), (f s).2)

/-- The outcome of an attempt, failed or not. -/
def outcome (x : Attempt σ ε α) : Attempt σ ε' (Except ε α) := fun s => (.ok (x s).1, (x s).2)

/-- Another account of the same failure. -/
def mapError (f : ε → ε') (x : Attempt σ ε α) : Attempt σ ε' α := fun s =>
  ((x s).1.mapError f, (x s).2)

/-- Runs on a part of a state, read by `view` and put back by `put`. -/
def on (view : σ → τ) (put : τ → σ → σ) (x : Attempt τ ε α) : Attempt σ ε α := fun s =>
  ((x (view s)).1, put (x (view s)).2 s)

/-! ## What an attempt does to a state -/

@[simp] theorem pure_apply (a : α) (s : σ) : (pure a : Attempt σ ε α) s = (.ok a, s) := rfl

theorem bind_apply (x : Attempt σ ε α) (f : α → Attempt σ ε β) (s : σ) :
    (x >>= f) s =
      match x s with
      | (.ok a, s) => f a s
      | (.error e, s) => (.error e, s) := rfl

theorem bind_of_ok {x : Attempt σ ε α} {f : α → Attempt σ ε β} {s s' : σ} {a : α}
    (h : x s = (.ok a, s')) : (x >>= f) s = f a s' := by
  rw [bind_apply, h]

theorem bind_of_error {x : Attempt σ ε α} {f : α → Attempt σ ε β} {s s' : σ} {e : ε}
    (h : x s = (.error e, s')) : (x >>= f) s = (.error e, s') := by
  rw [bind_apply, h]

@[simp] theorem fail_apply (e : ε) (s : σ) : (fail e : Attempt σ ε α) s = (.error e, s) := rfl

@[simp] theorem ofExcept_apply (x : Except ε α) (s : σ) : (ofExcept x) s = (x, s) := rfl

@[simp] theorem get_apply (s : σ) : (get : Attempt σ ε σ) s = (.ok s, s) := rfl

@[simp] theorem set_apply (s s' : σ) : (set s' : Attempt σ ε Unit) s = (.ok (), s') := rfl

@[simp] theorem modify_apply (f : σ → σ) (s : σ) :
    (modify f : Attempt σ ε Unit) s = (.ok (), f s) := rfl

@[simp] theorem ofState_apply (f : σ → α × σ) (s : σ) :
    (ofState f : Attempt σ ε α) s = (.ok (f s).1, (f s).2) := rfl

@[simp] theorem outcome_apply (x : Attempt σ ε α) (s : σ) :
    (outcome x : Attempt σ ε' (Except ε α)) s = (.ok (x s).1, (x s).2) := rfl

@[simp] theorem mapError_apply (f : ε → ε') (x : Attempt σ ε α) (s : σ) :
    (mapError f x) s = ((x s).1.mapError f, (x s).2) := rfl

@[simp] theorem on_apply (view : σ → τ) (put : τ → σ → σ) (x : Attempt τ ε α) (s : σ) :
    (on view put x) s = ((x (view s)).1, put (x (view s)).2 s) := rfl

end Attempt

end InstallMedia
