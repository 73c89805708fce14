import InstallMedia.Source.Basic

/-!
# Runs of calls

What is done with a source is a sequence of calls, in any order.

## Main definitions

* `Call`, `Call.perform`: one use of a source
* `Call.run`: a sequence of uses
* `Source.Wraps`: a source that has another one inside
* `Traced`: a source that notes the calls that are made to it

## Main results

* `Call.run_induction`: what every call preserves, every run preserves
* `Source.Wraps.run`: a source does in every run what the one inside it does
-/

namespace InstallMedia

/-- One use of a source. -/
inductive Call where
  | start
  | finish
  | openFile (name : String)
  | has (name : String)
  | store (name : String) (stream : Stream)

namespace Call

variable {α : Type} [Source α]

/-- What a call does to a source in the world.  What is looked for is found or not; neither is a
failure. -/
def perform : Call → Operation α Unit
  | start => Source.start
  | finish => Source.finish
  | openFile name => fun s => ((Source.openFile name s).1.map fun _ => (),
      (Source.openFile name s).2)
  | has name => fun s => (.ok (), (Source.has name s).2)
  | store name stream => fun s => ((Source.store name (stream, s)).1,
      (Source.store name (stream, s)).2.2)

/-- What a sequence of calls does, whether they fail or not. -/
def run (calls : List Call) (s : α × World) : α × World :=
  calls.foldl (fun s call => (call.perform s).2) s

@[simp] theorem run_nil (s : α × World) : run [] s = s := rfl

theorem run_cons (call : Call) (calls : List Call) (s : α × World) :
    run (call :: calls) s = run calls (call.perform s).2 := rfl

/-- What every call preserves, every run preserves. -/
theorem run_induction (inv : α × World → Prop) {calls : List Call}
    (h : ∀ call ∈ calls, ∀ s, inv s → inv (call.perform s).2) {s : α × World} (hs : inv s) :
    inv (run calls s) := by
  induction calls generalizing s with
  | nil => exact hs
  | cons call calls ih =>
    rw [run_cons]
    exact ih (fun c hc => h c (by simp [hc])) (h call (by simp) s hs)

end Call

namespace Source

/-- A source that does what another one inside it does. -/
structure Wraps {α β : Type} [Source α] [Source β] (wrap : α → β) : Prop where
  perform_eq : ∀ (call : Call) s w, call.perform (wrap s, w) =
    ((call.perform (s, w)).1, wrap (call.perform (s, w)).2.1, (call.perform (s, w)).2.2)
  abandon_eq : ∀ s w, Source.abandon (wrap s, w) = Source.abandon (s, w)

namespace Wraps

variable {α β γ : Type} [Source α] [Source β] [Source γ] {wrap : α → β} {outside : β → γ}

theorem comp (outer : Wraps outside) (inner : Wraps wrap) : Wraps (outside ∘ wrap) where
  perform_eq call s w := by
    rw [Function.comp_apply, outer.perform_eq, inner.perform_eq]
    rfl
  abandon_eq s w := by rw [Function.comp_apply, outer.abandon_eq, inner.abandon_eq]

/-- So it is in every run. -/
theorem run (h : Wraps wrap) (calls : List Call) (s : α) (w : World) :
    Call.run calls (wrap s, w) = (wrap (Call.run calls (s, w)).1, (Call.run calls (s, w)).2) := by
  induction calls generalizing s w with
  | nil => rfl
  | cons call calls ih => rw [Call.run_cons, Call.run_cons, h.perform_eq, ih]

end Wraps

/-- A source that is only read refuses to write, and nothing else is done. -/
theorem whenWritable_apply {σ : Type} (readOnly : Bool) (name : String)
    (x : Attempt σ SourceError Unit) (s : σ) :
    whenWritable readOnly name x s =
      if readOnly then (.error (.precondition (.readOnly name)), s) else x s := by
  cases readOnly <;> rfl

end Source

/-! ## Traces -/

/-- A source with the calls that were made to it. -/
structure Traced (α : Type) where
  source : α
  calls : List Call := []

namespace Traced

variable {α : Type} [Source α]

/-- Makes a call, and notes that it was made. -/
def noting {β : Type} (call : Call) (x : α × World → β × α × World) :
    Traced α × World → β × Traced α × World := fun (t, w) =>
  let (result, source, w) := x (t.source, w)
  (result, ⟨source, t.calls ++ [call]⟩, w)

instance : Source (Traced α) where
  readOnly t := Source.readOnly t.source
  openFile name := noting (.openFile name) (Source.openFile name)
  has name := noting (.has name) (Source.has name)
  store name := fun (stream, t, w) =>
    let (result, left, source, w) := Source.store name (stream, t.source, w)
    (result, left, ⟨source, t.calls ++ [.store name stream]⟩, w)
  start := noting .start Source.start
  finish := noting .finish Source.finish
  canEject t := Source.canEject t.source
  abandon := fun (t, w) => Source.abandon (t.source, w)

theorem start_eq (t : Traced α) (w : World) :
    Source.start (t, w) = noting .start Source.start (t, w) := rfl

theorem finish_eq (t : Traced α) (w : World) :
    Source.finish (t, w) = noting .finish Source.finish (t, w) := rfl

theorem openFile_eq (name : String) (t : Traced α) (w : World) :
    Source.openFile name (t, w) = noting (.openFile name) (Source.openFile name) (t, w) := rfl

end Traced

end InstallMedia
