import InstallMedia.Counted
import Mathlib.Algebra.Group.Nat.Defs
import Mathlib.Data.List.Chain
import Mathlib.Data.List.Induction

/-!
# Counted resources: the laws

A counted resource does what a plain count of references says: it is opened when the first
reference is taken and closed when the last one is given back, and in between it is held, with all
that was done to it.  What opens and closes it may fail, and may change the world beside it.

## Main definitions

* `Counted.Use`, `Counted.Use.perform`: one use of a counted resource
* `Counted.Callback`, `Counted.Use.noted`: the openings and closings that a use runs
* `Counted.run`: uses one after the other, with a record of each
* `Counted.outstanding`, `Counted.lastOpened`, `Counted.turns`: what records say of the references
  that are out, of the resource, and of the order of openings and closings
* `Counted.Follows`: a record as a plain count of references has it

## Main results

* `Counted.perform_noted`: noting callbacks changes nothing
* `Counted.Agrees.step`: what one use preserves
* `Counted.run_refines`: a counted resource does in every run what a plain count of references does
-/

namespace InstallMedia.Counted

variable {α σ ε : Type}

/-! ## Uses and callbacks -/

/-- One use of a counted resource. -/
inductive Use (α σ ε : Type) where
  | acquire (opening : Attempt σ ε α)
  | release (closing : Attempt (α × σ) ε Unit)
  | update (change : α → α)

/-- What a use does, and the count that it gives.  An update does not change the count. -/
def Use.perform : Use α σ ε → Attempt (Counted α × σ) ε Nat
  | acquire opening => Counted.acquire opening
  | release closing => Counted.release closing
  | update change => fun (c, s) => (.ok c.count, c.update change, s)

/-- What was run for a use, and how it ended. -/
inductive Callback (α ε : Type) where
  | opening (result : Except ε α)
  /-- The resource as it was found, and as it was left. -/
  | closing (found left : α) (result : Except ε Unit)

/-- A use that notes the callbacks that it runs. -/
def Use.noted : Use α σ ε → Use α (σ × List (Callback α ε)) ε
  | acquire opening => .acquire fun (s, called) =>
    let (result, s) := opening s
    (result, s, called ++ [.opening result])
  | release closing => .release fun (found, s, called) =>
    let (result, left, s) := closing (found, s)
    (result, left, s, called ++ [.closing found left result])
  | update change => .update change

/-- Noting callbacks changes nothing. -/
theorem perform_noted (use : Use α σ ε) (c : Counted α) (s : σ) (called : List (Callback α ε)) :
    ∃ more, use.noted.perform (c, s, called) =
      ((use.perform (c, s)).1, (use.perform (c, s)).2.1, (use.perform (c, s)).2.2,
        called ++ more) := by
  cases use with
  | acquire opening =>
    cases c with
    | idle =>
      refine ⟨[.opening (opening s).1], ?_⟩
      simp only [Use.noted, Use.perform, acquire]
      rcases opening s with ⟨_ | _, _⟩ <;> rfl
    | held resource others => exact ⟨[], by rw [List.append_nil]; rfl⟩
  | release closing =>
    cases c with
    | idle => exact ⟨[], by rw [List.append_nil]; rfl⟩
    | held resource others =>
      cases others with
      | zero =>
        refine ⟨[.closing resource (closing (resource, s)).2.1 (closing (resource, s)).1], ?_⟩
        simp only [Use.noted, Use.perform, release]
        rcases closing (resource, s) with ⟨_ | _, _, _⟩ <;> rfl
      | succ others => exact ⟨[], by rw [List.append_nil]; rfl⟩
  | update change => exact ⟨[], by rw [List.append_nil]; rfl⟩

/-! ## Runs -/

/-- A use that was made: the callbacks that it ran, and the count that it gave. -/
structure Record (α σ ε : Type) where
  use : Use α σ ε
  called : List (Callback α ε)
  result : Except ε Nat

/-- One use more, with its record. -/
def step (past : List (Record α σ ε) × Counted α × σ) (use : Use α σ ε) :
    List (Record α σ ε) × Counted α × σ :=
  let (result, c, s, called) := use.noted.perform (past.2.1, past.2.2, [])
  (past.1 ++ [⟨use, called, result⟩], c, s)

/-- The uses of a new counted resource one after the other, with a record of each. -/
def run (uses : List (Use α σ ε)) (s : σ) : List (Record α σ ε) × Counted α × σ :=
  uses.foldl step ([], .idle, s)

theorem run_concat (uses : List (Use α σ ε)) (use : Use α σ ε) (s : σ) :
    run (uses ++ [use]) s = step (run uses s) use := by
  simp [run]

/-- Every use is recorded, in order, and what is held is what the uses made of it. -/
theorem run_eq (uses : List (Use α σ ε)) (s : σ) : (run uses s).1.map Record.use = uses ∧
    (run uses s).2 = uses.foldl (fun now use => (use.perform now).2) (.idle, s) := by
  induction uses using List.reverseRecOn with
  | nil => exact ⟨rfl, rfl⟩
  | append_singleton uses use ih =>
    obtain ⟨uses_eq, now_eq⟩ := ih
    obtain ⟨more, performed⟩ := perform_noted use (run uses s).2.1 (run uses s).2.2 []
    rw [run_concat, step, performed, List.foldl_concat, ← now_eq]
    refine ⟨?_, rfl⟩
    rw [List.map_append, uses_eq]
    rfl

/-! ## What records say -/

/-- The references that are out after a use. -/
def Record.count (n : Nat) (r : Record α σ ε) : Nat :=
  match r.use, r.result with
  | .acquire _, .ok _ => n + 1
  -- Below nothing there is nothing.
  | .release _, .ok _ => n - 1
  | _, _ => n

/-- The references that are out: one more for each that was taken, one fewer for each that was
given back. -/
def outstanding (records : List (Record α σ ε)) : Nat := records.foldl Record.count 0

/-- What is held after a callback. -/
def Callback.settle (held : Option α) : Callback α ε → Option α
  | .opening (.ok resource) => some resource
  | .opening (.error _) => held
  | .closing _ _ (.ok _) => none
  -- What a closing did before it failed is kept.
  | .closing _ left (.error _) => held.map fun _ => left

/-- What is held after a use. -/
def Record.settle (held : Option α) (r : Record α σ ε) : Option α :=
  match r.use with
  | .update change => held.map change
  | _ => r.called.foldl Callback.settle held

/-- What was opened last and not closed since, with all that was done to it since. -/
def lastOpened (records : List (Record α σ ε)) : Option α := records.foldl Record.settle none

/-- A callback that succeeded. -/
inductive Turn where
  | opened
  | closed
  deriving DecidableEq, Repr

def Callback.turn? : Callback α ε → Option Turn
  | .opening (.ok _) => some .opened
  | .closing _ _ (.ok _) => some .closed
  | _ => none

/-- The callbacks that succeeded, in order. -/
def turns (records : List (Record α σ ε)) : List Turn :=
  (records.flatMap Record.called).filterMap Callback.turn?

theorem outstanding_concat (records : List (Record α σ ε)) (r : Record α σ ε) :
    outstanding (records ++ [r]) = r.count (outstanding records) := by
  simp [outstanding]

theorem lastOpened_concat (records : List (Record α σ ε)) (r : Record α σ ε) :
    lastOpened (records ++ [r]) = r.settle (lastOpened records) := by
  simp [lastOpened]

theorem turns_concat (records : List (Record α σ ε)) (r : Record α σ ε) :
    turns (records ++ [r]) = turns records ++ r.called.filterMap Callback.turn? := by
  simp [turns]

/-- No use takes more than one reference. -/
theorem outstanding_le_length (records : List (Record α σ ε)) :
    outstanding records ≤ records.length := by
  induction records using List.reverseRecOn with
  | nil => exact Nat.le_refl 0
  | append_singleton records r ih =>
    have step : r.count (outstanding records) ≤ outstanding records + 1 := by
      unfold Record.count
      split <;> omega
    rw [outstanding_concat, List.length_append, List.length_singleton]
    omega

/-! ## A plain count of references -/

/-- A record as a plain count of references has it, with so many references out and this resource
held.  Only the first reference opens, only the last one closes what is held. -/
inductive Follows (n : Nat) (held : Option α) : Record α σ ε → Prop
  | opens (first : n = 0) (opening : Attempt σ ε α) (s : σ) :
    Follows n held ⟨.acquire opening, [.opening (opening s).1], (opening s).1.map fun _ => 1⟩
  | shares (started : 0 < n) (opening : Attempt σ ε α) :
    Follows n held ⟨.acquire opening, [], .ok (n + 1)⟩
  | ignores (unheld : n = 0) (closing : Attempt (α × σ) ε Unit) :
    Follows n held ⟨.release closing, [], .ok 0⟩
  | closes (last : n = 1) (closing : Attempt (α × σ) ε Unit) (s : σ) (found : α)
      (here : held = some found) :
    Follows n held ⟨.release closing,
      [.closing found (closing (found, s)).2.1 (closing (found, s)).1],
      (closing (found, s)).1.map fun _ => 0⟩
  | keeps (nested : 1 < n) (closing : Attempt (α × σ) ε Unit) :
    Follows n held ⟨.release closing, [], .ok (n - 1)⟩
  | changes (change : α → α) : Follows n held ⟨.update change, [], .ok n⟩

/-- Openings and closings that succeed take turns, an opening first; what was opened last and not
closed is held. -/
structure Alternates (turns : List Turn) (held : Bool) : Prop where
  takeTurns : turns.IsChain (· ≠ ·)
  head_ne : turns.head? ≠ some .closed
  held_iff : held = true ↔ turns.getLast? = some .opened

theorem Alternates.nil : Alternates [] false := ⟨.nil, nofun, by simp⟩

theorem Alternates.opened {turns : List Turn} (h : Alternates turns false) :
    Alternates (turns ++ [.opened]) true := by
  obtain ⟨chain, head, held⟩ := h
  refine ⟨chain.append (.singleton _) ?_, ?_, by simp⟩
  · -- If the last turn had been an opening, something would be held.
    rintro last hlast next hnext rfl
    obtain rfl : last = .opened := by simpa using hnext.symm
    exact absurd (held.mpr hlast) (by simp)
  · cases turns with
    | nil => nofun
    | cons turn turns => exact head

theorem Alternates.closed {turns : List Turn} (h : Alternates turns true) :
    Alternates (turns ++ [.closed]) false := by
  obtain ⟨chain, head, held⟩ := h
  have last : turns.getLast? = some .opened := held.mp rfl
  refine ⟨chain.append (.singleton _) ?_, ?_, by simp⟩
  · rintro turn hturn next hnext rfl
    obtain rfl : turn = .closed := by simpa using hnext.symm
    simp [last] at hturn
  · cases turns with
    | nil => cases last
    | cons turn turns => exact head

/-! ## Runs follow a plain count -/

/-- What every use preserves: the counted resource is as the records say, and each of them follows
from those before it. -/
structure Agrees (records : List (Record α σ ε)) (c : Counted α) : Prop where
  count_eq : c.count = outstanding records
  resource_eq : c.resource? = lastOpened records
  alternates : Alternates (turns records) c.isHeld
  follows : ∀ before r after, records = before ++ r :: after →
    Follows (outstanding before) (lastOpened before) r

theorem Agrees.nil : Agrees ([] : List (Record α σ ε)) .idle :=
  ⟨rfl, rfl, .nil, fun before r after h => by simp at h⟩

/-- One record more that follows from those before it. -/
theorem Agrees.concat {records : List (Record α σ ε)} {c c' : Counted α} (h : Agrees records c)
    {r : Record α σ ε} (count : c'.count = r.count c.count)
    (resource : c'.resource? = r.settle c.resource?)
    (alternates : Alternates (turns records ++ r.called.filterMap Callback.turn?) c'.isHeld)
    (follows : Follows c.count c.resource? r) : Agrees (records ++ [r]) c' := by
  refine ⟨?_, ?_, ?_, ?_⟩
  · rw [outstanding_concat, ← h.count_eq, count]
  · rw [lastOpened_concat, ← h.resource_eq, resource]
  · rwa [turns_concat]
  · intro before r' after split
    -- The last record is the new one, and all others were there before.
    rcases List.eq_nil_or_concat after with rfl | ⟨after, last, rfl⟩
    · obtain ⟨rfl, one⟩ := List.append_inj' split rfl
      obtain rfl : r = r' := by simpa using one
      rw [← h.count_eq, ← h.resource_eq]
      exact follows
    · apply h.follows before r' after
      have same : records ++ [r] = (before ++ r' :: after) ++ [last] := by simpa using split
      exact (List.append_inj' same rfl).1

/-- A record of a use in which nothing was opened and nothing closed. -/
theorem Agrees.concat_quiet {records : List (Record α σ ε)} {c c' : Counted α}
    (h : Agrees records c) {r : Record α σ ε} (count : c'.count = r.count c.count)
    (resource : c'.resource? = r.settle c.resource?) (same : c'.isHeld = c.isHeld)
    (quiet : r.called.filterMap Callback.turn? = []) (follows : Follows c.count c.resource? r) :
    Agrees (records ++ [r]) c' := by
  refine h.concat count resource ?_ follows
  rw [quiet, List.append_nil, same]
  exact h.alternates

/-- The largest count is not exceeded while fewer references are out. -/
theorem count_of_few {n : Nat} (few : n + 1 < 2 ^ 64) : min (n + 1) largestCount = n + 1 := by
  have : largestCount = 2 ^ 64 - 1 := rfl
  omega

/-- A use of a counted resource does what a plain count of references says. -/
theorem Agrees.step {past : List (Record α σ ε) × Counted α × σ} (h : Agrees past.1 past.2.1)
    (use : Use α σ ε) (few : outstanding (step past use).1 < 2 ^ 64) :
    Agrees (step past use).1 (step past use).2.1 := by
  obtain ⟨records, c, s⟩ := past
  cases use with
  | acquire opening =>
    cases c with
    | idle =>
      have opens : Follows 0 (none : Option α) _ := .opens rfl opening s
      simp only [Counted.step, Use.noted, Use.perform, acquire]
      cases opened : opening s with
      | mk result s' =>
        rw [opened] at opens
        cases result with
        | ok resource => exact h.concat rfl rfl h.alternates.opened opens
        | error e => exact h.concat_quiet rfl rfl rfl rfl opens
    | held resource others =>
      have shares : Follows (others + 1) (some resource) _ :=
        .shares (σ := σ) (ε := ε) (Nat.succ_pos others) opening
      -- The count is at its bound only if too many references are out.
      have out : outstanding (Counted.step (records, held resource others, s)
          (.acquire opening)).1 = others + 1 + 1 := by
        have before : others + 1 = outstanding records := h.count_eq
        rw [Counted.step, outstanding_concat, ← before]
        rfl
      rw [out] at few
      simp only [Counted.step, Use.noted, Use.perform, acquire]
      rw [count_of_few few]
      exact h.concat_quiet rfl rfl rfl rfl shares
  | release closing =>
    cases c with
    | idle => exact h.concat_quiet rfl rfl rfl rfl (.ignores rfl closing)
    | held resource others =>
      cases others with
      | zero =>
        have closes : Follows 1 (some resource) _ := .closes rfl closing s resource rfl
        simp only [Counted.step, Use.noted, Use.perform, release]
        cases closed : closing (resource, s) with
        | mk result rest =>
          obtain ⟨left, s'⟩ := rest
          rw [closed] at closes
          cases result with
          | ok _ => exact h.concat rfl rfl h.alternates.closed closes
          -- A closing that failed leaves what it made of the resource.
          | error e => exact h.concat_quiet rfl rfl rfl rfl closes
      | succ others =>
        have keeps : Follows (others + 1 + 1) (some resource) _ :=
          .keeps (Nat.succ_lt_succ (Nat.succ_pos others)) closing
        exact h.concat_quiet rfl rfl rfl rfl keeps
  | update change =>
    cases c with
    | idle => exact h.concat_quiet rfl rfl rfl rfl (.changes change)
    | held resource others => exact h.concat_quiet rfl rfl rfl rfl (.changes change)

/-- While fewer references are out than can be counted, the records of a run agree with what is
held. -/
theorem run_agrees (uses : List (Use α σ ε)) (s : σ)
    (few : ∀ past, past <+: (run uses s).1 → outstanding past < 2 ^ 64) :
    Agrees (run uses s).1 (run uses s).2.1 := by
  induction uses using List.reverseRecOn with
  | nil => exact .nil
  | append_singleton uses use ih =>
    rw [run_concat] at few ⊢
    have earlier : (run uses s).1 <+: (step (run uses s) use).1 := List.prefix_append _ _
    refine (ih fun past hpast => few past (hpast.trans earlier)).step use ?_
    exact few _ (List.prefix_refl _)

/-- **A counted resource does what a plain count of references does.**  While fewer references are
out than can be counted, its count is theirs, it is held exactly while there are any, and it is what
was opened last, with all that was done to it since.  Each use runs a callback exactly when the
first reference is taken or the last one is given back, and those that succeed take turns. -/
theorem run_refines (uses : List (Use α σ ε)) (s : σ)
    (few : ∀ past, past <+: (run uses s).1 → outstanding past < 2 ^ 64) :
    let records := (run uses s).1
    let c := (run uses s).2.1
    (records.map Record.use = uses ∧
      (run uses s).2 = uses.foldl (fun now use => (use.perform now).2) (.idle, s)) ∧
    c.count = outstanding records ∧
    (c.isHeld = true ↔ 0 < outstanding records) ∧
    c.resource? = lastOpened records ∧
    Alternates (turns records) c.isHeld ∧
    ∀ before r after, records = before ++ r :: after →
      Follows (outstanding before) (lastOpened before) r := by
  intro records c
  obtain ⟨count, resource, alternates, follows⟩ := run_agrees uses s few
  have held : c.isHeld = true ↔ 0 < outstanding records := by
    rw [isHeld_iff, count]
  exact ⟨run_eq uses s, count, held, resource, alternates, follows⟩

/-- A release of nothing, an opening that fails, one that succeeds, and a closing that fails after
it has changed what it found. -/
def jammed : List (Use Nat Unit String) :=
  [.release fun found => (.ok (), found), .acquire (Attempt.fail "absent"), .acquire (pure 7),
    .acquire (pure 8), .update (· + 1), .release fun found => (.ok (), found),
    .release fun (found, s) => (.error "busy", found + 10, s)]

/-- What was opened is still held, with all that was done to it. -/
theorem run_jammed_refines :
    (∀ past, past <+: (run jammed ()).1 → outstanding past < 2 ^ 64) ∧
      (run jammed ()).2.1.count = 1 ∧ (run jammed ()).2.1.resource? = some 18 ∧
      turns (run jammed ()).1 = [.opened] := by
  have few : ∀ past, past <+: (run jammed ()).1 → outstanding past < 2 ^ 64 := by
    intro past hpast
    have short : past.length ≤ 7 := hpast.length_le
    have out := outstanding_le_length past
    omega
  obtain ⟨-, count, -, resource, -, -⟩ := run_refines jammed () few
  exact ⟨few, count.trans rfl, resource.trans rfl, rfl⟩

end InstallMedia.Counted
