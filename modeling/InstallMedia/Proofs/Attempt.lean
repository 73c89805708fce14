import InstallMedia.Attempt

/-!
# What attempts do

An attempt meets a contract when every state that satisfies its first part is led to a state that
satisfies the part for the outcome.  Contracts are put together as attempts are.

## Main definitions

* `Attempt.Ends`: from the states in `pre`, success ends in `post` and failure in `fails`
* `Attempt.Meets`: the same where the error of a failure does not matter

## Main results

* `Attempt.Ends.bind`, `Attempt.Meets.bind`: one attempt after another
* `bind_eq_ok_iff`, `check_eq_ok_iff`: when one step after another succeeds
* `bind_eq_error_iff`, `check_eq_error_iff`: when it fails
-/

namespace InstallMedia

/-- Two steps succeed if the first one does, and then the second one. -/
theorem bind_eq_ok_iff {ε α β : Type} {x : Except ε α} {f : α → Except ε β} {b : β} :
    x >>= f = .ok b ↔ ∃ a, x = .ok a ∧ f a = .ok b := by
  cases x with
  | error e =>
    constructor
    · intro h
      cases h
    · rintro ⟨a, h, -⟩
      cases h
  | ok a =>
    constructor
    · intro h
      exact ⟨a, rfl, h⟩
    · rintro ⟨a', h, hf⟩
      cases h
      exact hf

/-- What comes after a check succeeds if the check lets it happen. -/
theorem check_eq_ok_iff {ε α β : Type} {p : Prop} [Decidable p] {e : ε} {f : α → Except ε β}
    {x : Except ε β} {b : β} : (if p then throw e >>= f else x) = .ok b ↔ ¬ p ∧ x = .ok b := by
  by_cases h : p
  · simp only [h, not_true_eq_false, false_and, iff_false]
    intro hx
    cases hx
  · simp [h]

/-- Two steps fail if the first one does, or the second one after it. -/
theorem bind_eq_error_iff {ε α β : Type} {x : Except ε α} {f : α → Except ε β} {e : ε} :
    x >>= f = .error e ↔ x = .error e ∨ ∃ a, x = .ok a ∧ f a = .error e := by
  cases x with
  | error e' => simp [bind, Except.bind]
  | ok a => simp [bind, Except.bind]

theorem check_eq_error_iff {ε α β : Type} {p : Prop} [Decidable p] {e' e : ε}
    {f : α → Except ε β} {x : Except ε β} :
    (if p then throw e' >>= f else x) = .error e ↔ p ∧ e' = e ∨ ¬ p ∧ x = .error e := by
  by_cases h : p
  · simp [h, throw, throwThe, MonadExceptOf.throw, bind, Except.bind]
  · simp [h]

theorem mapError_eq_error_iff {ε ε' α : Type} {f : ε → ε'} {x : Except ε α} {e : ε'} :
    x.mapError f = .error e ↔ ∃ e', x = .error e' ∧ f e' = e := by
  constructor
  · intro h
    cases x with
    | error e' => exact ⟨e', rfl, Except.error.inj h⟩
    | ok a => cases h
  · rintro ⟨e', rfl, rfl⟩
    rfl

theorem map_eq_error_iff {ε α β : Type} {f : α → β} {x : Except ε α} {e : ε} :
    x.map f = .error e ↔ x = .error e := by
  cases x <;> simp [Except.map]

theorem map_eq_ok_iff {ε α β : Type} {f : α → β} {x : Except ε α} {b : β} :
    x.map f = .ok b ↔ ∃ a, x = .ok a ∧ f a = b := by
  cases x <;> simp [Except.map]

theorem mapError_eq_ok_iff {ε ε' α : Type} {f : ε → ε'} {x : Except ε α} {a : α} :
    x.mapError f = .ok a ↔ x = .ok a := by
  constructor
  · intro h
    cases x with
    | error e => cases h
    | ok a' => exact congrArg Except.ok (Except.ok.inj h)
  · rintro rfl
    rfl

theorem exists_of_isOk {ε α : Type} {x : Except ε α} (h : x.isOk = true) : ∃ a, x = .ok a := by
  cases x with
  | error e => cases h
  | ok a => exact ⟨a, rfl⟩

theorem toOption_eq_some_iff {ε α : Type} {x : Except ε α} {a : α} :
    x.toOption = some a ↔ x = .ok a := by
  cases x <;> simp [Except.toOption]

namespace Attempt

variable {σ τ ε ε' α β : Type}

/-- After a success known beforehand, its value is used. -/
theorem ofExcept_ok_bind (a : α) (f : α → Attempt σ ε β) :
    (Attempt.ofExcept (.ok a) >>= f) = f a := rfl

theorem bind_assoc {γ : Type} (x : Attempt σ ε α) (f : α → Attempt σ ε β)
    (g : β → Attempt σ ε γ) : x >>= f >>= g = x >>= fun a => f a >>= g := by
  funext s
  rw [bind_apply, bind_apply, bind_apply]
  cases x s with
  | mk result s => cases result <;> rfl

theorem discard_bind (x : Attempt σ ε α) (f : α → Attempt σ ε β) :
    discard (x >>= f) = x >>= fun a => discard (f a) :=
  bind_assoc x f _

/-- Only what an attempt gives is discarded. -/
theorem discard_apply (x : Attempt σ ε α) (s : σ) :
    discard x s = ((x s).1.map fun _ => (), (x s).2) := by
  change (x >>= fun _ => pure ()) s = _
  rw [bind_apply]
  cases x s with
  | mk result s' => cases result <;> rfl

/-- From every state that satisfies `pre`, success leads to `post` and failure to `fails`, which is
told the error. -/
def Ends (pre : σ → Prop) (x : Attempt σ ε α) (post : α → σ → Prop) (fails : ε → σ → Prop) : Prop :=
  ∀ s, pre s →
    match x s with
    | (.ok a, s') => post a s'
    | (.error e, s') => fails e s'

namespace Ends

variable {pre pre' : σ → Prop} {x : Attempt σ ε α} {post post' : α → σ → Prop}
  {fails fails' : ε → σ → Prop}

/-- What success and failure both come to, the attempt comes to. -/
theorem snd {inv : σ → Prop} (h : Ends pre x post fails) (hpost : ∀ a s, post a s → inv s)
    (hfails : ∀ e s, fails e s → inv s) {s : σ} (hs : pre s) : inv (x s).2 := by
  have := h s hs
  split at this
  · rename_i hx
    rw [hx]
    exact hpost _ _ this
  · rename_i hx
    rw [hx]
    exact hfails _ _ this

theorem of_error (h : Ends pre x post fails) {s : σ} (hs : pre s) {e : ε}
    (he : (x s).1 = .error e) : fails e (x s).2 := by
  have := h s hs
  cases hx : x s with
  | mk result s' =>
    rw [hx] at this he
    obtain rfl : result = .error e := he
    exact this

theorem of_ok (h : Ends pre x post fails) {s : σ} (hs : pre s) {a : α}
    (ha : (x s).1 = .ok a) : post a (x s).2 := by
  have := h s hs
  cases hx : x s with
  | mk result s' =>
    rw [hx] at this ha
    obtain rfl : result = .ok a := ha
    exact this

theorem weaken (h : Ends pre x post fails) (hpre : ∀ s, pre' s → pre s)
    (hpost : ∀ a s, post a s → post' a s) (hfails : ∀ e s, fails e s → fails' e s) :
    Ends pre' x post' fails' := by
  intro s hs
  have := h s (hpre s hs)
  split at this
  · exact hpost _ _ this
  · exact hfails _ _ this

/-- What two contracts say holds together. -/
theorem and (h : Ends pre x post fails) (h' : Ends pre' x post' fails') :
    Ends (fun s => pre s ∧ pre' s) x (fun a s => post a s ∧ post' a s)
      fun e s => fails e s ∧ fails' e s := by
  rintro s ⟨hs, hs'⟩
  have first := h s hs
  have second := h' s hs'
  split at first
  · rename_i hx
    rw [hx] at second
    exact ⟨first, second⟩
  · rename_i hx
    rw [hx] at second
    exact ⟨first, second⟩

theorem pure {a : α} (h : ∀ s, pre s → post a s) :
    Ends pre (Pure.pure a : Attempt σ ε α) post fails :=
  fun s hs => h s hs

theorem fail {e : ε} (h : ∀ s, pre s → fails e s) :
    Ends pre (Attempt.fail e : Attempt σ ε α) post fails :=
  fun s hs => h s hs

theorem ofExcept {y : Except ε α} (h : ∀ a, y = .ok a → ∀ s, pre s → post a s)
    (h' : ∀ e, y = .error e → ∀ s, pre s → fails e s) :
    Ends pre (Attempt.ofExcept y : Attempt σ ε α) post fails := by
  intro s hs
  cases y with
  | ok a => exact h a rfl s hs
  | error e => exact h' e rfl s hs

theorem get {post : σ → σ → Prop} (h : ∀ s, pre s → post s s) :
    Ends pre (Attempt.get : Attempt σ ε σ) post fails :=
  fun s hs => h s hs

/-- One attempt after another: what the first one leaves is what the second one finds. -/
theorem bind {Q : α → σ → Prop} {f : α → Attempt σ ε β} {post : β → σ → Prop}
    (hx : Ends pre x Q fails) (hf : ∀ a, Ends (Q a) (f a) post fails) :
    Ends pre (x >>= f) post fails := by
  intro s hs
  have first := hx s hs
  rw [bind_apply]
  cases h : x s with
  | mk result s' =>
    rw [h] at first
    cases result with
    | ok a => exact hf a s' first
    | error e => exact first

/-- After an outcome known beforehand, only its value matters. -/
theorem ofExcept_bind {y : Except ε α} {f : α → Attempt σ ε β} {post : β → σ → Prop}
    (h : ∀ a, y = .ok a → Ends pre (f a) post fails)
    (h' : ∀ e, y = .error e → ∀ s, pre s → fails e s) :
    Ends pre (Attempt.ofExcept y >>= f) post fails := by
  cases y with
  | ok a => exact h a rfl
  | error e => exact h' e rfl

/-- What the outcome is changed to does not matter for the state. -/
theorem bind_pure {Q : σ → Prop} (h : Ends pre x (fun _ => Q) fails) (f : α → β) :
    Ends pre (x >>= fun a => Pure.pure (f a)) (fun _ => Q) fails :=
  bind h fun _ => pure fun _ hs => hs

theorem discard {Q : σ → Prop} (h : Ends pre x (fun _ => Q) fails) :
    Ends pre (Functor.discard x) (fun _ => Q) fails :=
  bind_pure h _

theorem mapError {f : ε → ε'} {fails' : ε' → σ → Prop} (h : Ends pre x post fails)
    (hf : ∀ e s, fails e s → fails' (f e) s) : Ends pre (x.mapError f) post fails' := by
  intro s hs
  have := h s hs
  rw [mapError_apply]
  cases hx : x s with
  | mk result s' =>
    rw [hx] at this
    cases result with
    | ok a => exact this
    | error e => exact hf e s' this

/-- On a part of a state, what holds of the rest is kept by putting the part back. -/
theorem on {pre : τ → Prop} {x : Attempt τ ε α} {post : α → τ → Prop} {fails : ε → τ → Prop}
    {view : σ → τ} {put : τ → σ → σ} (rest : σ → Prop) (hview : ∀ t s, view (put t s) = t)
    (hput : ∀ t s, rest s → rest (put t s)) (h : Ends pre x post fails) :
    Ends (fun s => rest s ∧ pre (view s)) (x.on view put)
      (fun a s => rest s ∧ post a (view s)) fun e s => rest s ∧ fails e (view s) := by
  rintro s ⟨hrest, hs⟩
  have := h (view s) hs
  rw [on_apply]
  cases hx : x (view s) with
  | mk result t =>
    rw [hx] at this
    cases result with
    | ok a => exact ⟨hput t s hrest, by rwa [hview]⟩
    | error e => exact ⟨hput t s hrest, by rwa [hview]⟩

theorem part {pre : τ → Prop} {x : Attempt τ ε α} {post : α → τ → Prop} {fails : ε → τ → Prop}
    {view : σ → τ} {put : τ → σ → σ} (hview : ∀ t s, view (put t s) = t)
    (h : Ends pre x post fails) :
    Ends (fun s => pre (view s)) (x.on view put) (fun a s => post a (view s))
      fun e s => fails e (view s) :=
  (on (fun _ => True) hview (fun _ _ h => h) h).weaken (fun _ hs => ⟨trivial, hs⟩)
    (fun _ _ hs => hs.2) fun _ _ hs => hs.2

end Ends

/-- From every state that satisfies `pre`, success leads to `post` and failure to `fails`, whatever
the error is. -/
def Meets (pre : σ → Prop) (x : Attempt σ ε α) (post : α → σ → Prop) (fails : σ → Prop) : Prop :=
  ∀ s, pre s →
    match x s with
    | (.ok a, s') => post a s'
    | (.error _, s') => fails s'

namespace Meets

variable {pre pre' fails fails' : σ → Prop} {x : Attempt σ ε α} {post post' : α → σ → Prop}

/-- If success and failure end alike, so does the attempt. -/
theorem snd {inv : σ → Prop} (h : Meets pre x (fun _ => inv) inv) {s : σ} (hs : pre s) :
    inv (x s).2 :=
  Ends.snd h (fun _ _ h => h) (fun _ _ h => h) hs

theorem of_ok (h : Meets pre x post fails) {s : σ} (hs : pre s) {a : α} (ha : (x s).1 = .ok a) :
    post a (x s).2 :=
  Ends.of_ok h hs ha

theorem and (h : Meets pre x post fails) (h' : Meets pre' x post' fails') :
    Meets (fun s => pre s ∧ pre' s) x (fun a s => post a s ∧ post' a s)
      fun s => fails s ∧ fails' s :=
  Ends.and h h'

theorem absurd : Meets (fun _ => False) x post fails := fun _ hs => hs.elim

theorem of_forall (h : ∀ a s, post a s) (h' : ∀ s, fails s) : Meets pre x post fails := by
  intro s _
  split
  · exact h _ _
  · exact h' _

theorem weaken (h : Meets pre x post fails) (hpre : ∀ s, pre' s → pre s)
    (hpost : ∀ a s, post a s → post' a s) (hfails : ∀ s, fails s → fails' s) :
    Meets pre' x post' fails' :=
  Ends.weaken h hpre hpost fun _ => hfails

theorem or_fails (h : Meets pre x post fails) (hfails : ∀ s, fails s → fails' s) :
    Meets pre x post fails' :=
  h.weaken (fun _ hs => hs) (fun _ _ hs => hs) hfails

theorem pure {a : α} (h : ∀ s, pre s → post a s) :
    Meets pre (Pure.pure a : Attempt σ ε α) post fails :=
  fun s hs => h s hs

theorem fail {e : ε} (h : ∀ s, pre s → fails s) :
    Meets pre (Attempt.fail e : Attempt σ ε α) post fails :=
  fun s hs => h s hs

theorem ofExcept {y : Except ε α} (h : ∀ a, y = .ok a → ∀ s, pre s → post a s)
    (h' : ∀ e, y = .error e → ∀ s, pre s → fails s) :
    Meets pre (Attempt.ofExcept y : Attempt σ ε α) post fails :=
  Ends.ofExcept h h'

theorem get {post : σ → σ → Prop} (h : ∀ s, pre s → post s s) :
    Meets pre (Attempt.get : Attempt σ ε σ) post fails :=
  fun s hs => h s hs

theorem modify {f : σ → σ} {post : Unit → σ → Prop} (h : ∀ s, pre s → post () (f s)) :
    Meets pre (Attempt.modify f : Attempt σ ε Unit) post fails :=
  fun s hs => h s hs

/-- One attempt after another: what the first one leaves is what the second one finds. -/
theorem bind {Q : α → σ → Prop} {f : α → Attempt σ ε β} {post : β → σ → Prop}
    (hx : Meets pre x Q fails) (hf : ∀ a, Meets (Q a) (f a) post fails) :
    Meets pre (x >>= f) post fails :=
  Ends.bind hx hf

/-- After an outcome known beforehand, only its value matters. -/
theorem ofExcept_bind {y : Except ε α} {f : α → Attempt σ ε β} {post : β → σ → Prop}
    (h : ∀ a, y = .ok a → Meets pre (f a) post fails) (h' : ∀ s, pre s → fails s) :
    Meets pre (Attempt.ofExcept y >>= f) post fails :=
  Ends.ofExcept_bind h fun _ _ => h'

/-- What the outcome is changed to does not matter for the state. -/
theorem bind_pure {Q : σ → Prop} (h : Meets pre x (fun _ => Q) fails) (f : α → β) :
    Meets pre (x >>= fun a => Pure.pure (f a)) (fun _ => Q) fails :=
  Ends.bind_pure h f

theorem discard {Q : σ → Prop} (h : Meets pre x (fun _ => Q) fails) :
    Meets pre (Functor.discard x) (fun _ => Q) fails :=
  Ends.discard h

theorem mapError {f : ε → ε'} (h : Meets pre x post fails) :
    Meets pre (x.mapError f) post fails :=
  Ends.mapError h fun _ _ hs => hs

/-- On a part of a state, what holds of the rest is kept by putting the part back. -/
theorem on {pre fails : τ → Prop} {x : Attempt τ ε α} {post : α → τ → Prop} {view : σ → τ}
    {put : τ → σ → σ} (rest : σ → Prop) (hview : ∀ t s, view (put t s) = t)
    (hput : ∀ t s, rest s → rest (put t s)) (h : Meets pre x post fails) :
    Meets (fun s => rest s ∧ pre (view s)) (x.on view put)
      (fun a s => rest s ∧ post a (view s)) fun s => rest s ∧ fails (view s) :=
  Ends.on rest hview hput h

theorem part {pre fails : τ → Prop} {x : Attempt τ ε α} {post : α → τ → Prop} {view : σ → τ}
    {put : τ → σ → σ} (hview : ∀ t s, view (put t s) = t) (h : Meets pre x post fails) :
    Meets (fun s => pre (view s)) (x.on view put) (fun a s => post a (view s))
      fun s => fails (view s) :=
  Ends.part hview h

/-- A contract for each value of something that stays the same is a contract for some value. -/
theorem exists_of_forall {ι : Type} {pre : ι → σ → Prop} {post : ι → α → σ → Prop}
    {fails : ι → σ → Prop} (h : ∀ i, Meets (pre i) x (post i) (fails i)) :
    Meets (fun s => ∃ i, pre i s) x (fun a s => ∃ i, post i a s) fun s => ∃ i, fails i s := by
  rintro s ⟨i, hs⟩
  have := h i s hs
  split at this
  · exact ⟨i, this⟩
  · exact ⟨i, this⟩

end Meets

end Attempt

end InstallMedia
