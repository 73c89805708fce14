import InstallMedia.Ftp.Listing
import InstallMedia.Stream.Copy

/-!
# Copies: the laws

## Main definitions

* `Feed.IsSound`, `Feed.Delivers`: a feed that ends without a fault, and the bytes before its end
* `Sink.Appends`: a sink that holds what it has taken, in order

## Main results

* `Feed.received_limited`: the size of reads does not matter for what is received
* `Copy.appends_of_copy`: a copy that ends well has put down just what was received
* `Copy.run_of_isSound`: a sound feed is copied to its end by a sink that takes everything
* `Copy.run_sink`: what every write and flush preserves, a copy preserves
-/

namespace InstallMedia

namespace Feed

/-- A feed that ends without a fault.  Interruptions do not count. -/
def IsSound (feed : Feed) : Prop := (Listing.received feed).2 = none

/-- All that is received from bytes is the bytes. -/
theorem received_ofBytes (bytes : Bytes) : Listing.received (ofBytes bytes) = (bytes, none) := by
  cases bytes <;> simp [ofBytes, Listing.received]

/-- A feed that gives just these bytes and then ends without a fault. -/
def Delivers (feed : Feed) (bytes : Bytes) : Prop := Listing.received feed = (bytes, none)

theorem IsSound.delivers {feed : Feed} (sound : feed.IsSound) :
    feed.Delivers (Listing.received feed).1 :=
  Prod.ext rfl sound

/-- A reader who reads to the end gets what is received, unless a fault ends it. -/
theorem gatherFrom_eq (before : List Bytes) (feed : Feed) : (gatherFrom before feed).1 =
    match (Listing.received feed).2 with
    | none => .ok (before.reverse.flatten ++ (Listing.received feed).1)
    | some cause => .error cause := by
  induction feed generalizing before with
  | nil => simp [gatherFrom, Listing.received]
  | cons event rest ih =>
    cases event with
    | chunk bytes =>
      cases bytes with
      | nil => simp [gatherFrom, Listing.received]
      | cons b bytes =>
        rw [gatherFrom, ih, Listing.received]
        · simp [List.append_assoc]
        · simp
        · simp
    | fault cause =>
      rw [gatherFrom, Listing.received]
      split
      · exact ih before
      · rfl

theorem Delivers.gather {feed : Feed} {bytes : Bytes} (h : feed.Delivers bytes) :
    feed.gather.1 = .ok bytes := by
  rw [Feed.gather, gatherFrom_eq, h]
  rfl

theorem pieces_ne_nil (size : Nat) {bytes : Bytes} (h : bytes ≠ []) :
    ∀ piece ∈ pieces size bytes, piece ≠ [] := by
  fun_induction pieces size bytes with
  | case1 bytes _ => simpa using h
  | case2 bytes hlen ih =>
    intro piece hpiece
    rcases List.mem_cons.mp hpiece with rfl | hpiece
    · simpa using h
    · refine ih (fun hnil => ?_) piece hpiece
      have := List.drop_eq_nil_iff.mp hnil
      omega

theorem flatten_pieces (size : Nat) (bytes : Bytes) : (pieces size bytes).flatten = bytes := by
  fun_induction pieces size bytes with
  | case1 bytes _ => simp
  | case2 bytes _ ih => rw [List.flatten_cons, ih, List.take_append_drop]

/-- What comes after whole pieces is received after them. -/
theorem received_append_pieces {pieces : List Bytes} (h : ∀ piece ∈ pieces, piece ≠ [])
    (rest : Feed) : Listing.received (pieces.map .chunk ++ rest) =
      (pieces.flatten ++ (Listing.received rest).1, (Listing.received rest).2) := by
  induction pieces with
  | nil => rfl
  | cons piece pieces ih =>
    cases piece with
    | nil => exact absurd rfl (h [] (by simp))
    | cons b piece =>
      have later := ih fun p hp => h p (by simp [hp])
      simp [Listing.received, later]

/-- A reader who asks for less at a time receives the same. -/
theorem received_limited (size : Nat) (feed : Feed) :
    Listing.received (feed.limited size) = Listing.received feed := by
  induction feed with
  | nil => rfl
  | cons event rest ih =>
    cases event with
    | chunk bytes =>
      cases bytes with
      | nil =>
        -- An empty chunk ends a feed, and stays an empty chunk.
        have : pieces size [] = [[]] := by
          rw [pieces, if_pos (by simp)]
        simp [Feed.limited, this, Listing.received]
      | cons b bytes =>
        have cut : Feed.limited size (.chunk (b :: bytes) :: rest) =
            (pieces size (b :: bytes)).map .chunk ++ Feed.limited size rest := rfl
        rw [cut, received_append_pieces (pieces_ne_nil size (by simp)), flatten_pieces, ih]
        simp [Listing.received]
    | fault cause =>
      have same : Feed.limited size (.fault cause :: rest) =
          .fault cause :: Feed.limited size rest := rfl
      rw [same, Listing.received, Listing.received, ih]

/-- A feed does not end otherwise for a reader who asks for less at a time. -/
theorem IsSound.limited {feed : Feed} (sound : feed.IsSound) (size : Nat) :
    IsSound (feed.limited size) := by
  rwa [IsSound, received_limited]

end Feed

/-- What one write answers decides how the writing goes on. -/
theorem Sink.writeAll_cons {σ : Type} (sink : Sink σ) (b : UInt8) (more : Bytes) (s : σ) :
    sink.writeAll (b :: more) s = match sink.write s (b :: more) with
      | (.ok 0, s) => (.error .writeZero, s)
      | (.ok (n + 1), s) => sink.writeAll (more.drop n) s
      | (.error cause, s) =>
        if cause.isInterrupted then sink.writeAll (b :: more) s else (.error cause, s) := by
  rw [Sink.writeAll]
  split
  all_goals
    rename_i answered
    simp only [answered, dite_eq_ite]

namespace Copy

variable {σ : Type}

/-! ## One piece -/

section Piece

variable {sink : Sink σ} {b : UInt8} {bytes : Bytes} {copied : Nat} {rest : Feed} {s s' : σ}

theorem run_of_written (h : sink.writeAll (b :: bytes) s = (.ok (), s')) :
    run sink copied (.chunk (b :: bytes) :: rest) s =
      (run sink (copied + (b :: bytes).length) rest s').afterRead := by
  rw [run, h]
  simp

theorem run_of_not_written {cause : IoFault}
    (h : sink.writeAll (b :: bytes) s = (.error cause, s')) :
    run sink copied (.chunk (b :: bytes) :: rest) s = ⟨.error cause, s', rest, 1⟩ := by
  rw [run, h]
  simp

end Piece

/-! ## Sinks that take everything -/

/-- A sound feed is copied to its end by a sink that takes everything. -/
theorem run_of_isSound {sink : Sink σ}
    (takes : ∀ bytes s, ∃ s', sink.writeAll bytes s = (.ok (), s'))
    (flushes : ∀ s, ∃ s', sink.flush s = (.ok (), s')) {feed : Feed} (sound : feed.IsSound)
    (copied : Nat) (s : σ) : ∃ n, (run sink copied feed s).result = .ok n := by
  induction feed generalizing copied s with
  | nil =>
    obtain ⟨s', hs'⟩ := flushes s
    exact ⟨copied, by simp [run, ending, afterRead, hs']⟩
  | cons event rest ih =>
    cases event with
    | chunk bytes =>
      cases bytes with
      | nil =>
        obtain ⟨s', hs'⟩ := flushes s
        exact ⟨copied, by simp [run, ending, afterRead, hs']⟩
      | cons b bytes =>
        obtain ⟨s', hs'⟩ := takes (b :: bytes) s
        rw [run_of_written hs']
        exact ih sound _ _
    | fault cause =>
      simp only [Feed.IsSound, Listing.received] at sound
      split at sound
      · rename_i hc
        rw [run, if_pos hc]
        exact ih sound _ _
      · simp at sound

theorem copy_of_isSound {sink : Sink σ}
    (takes : ∀ bytes s, ∃ s', sink.writeAll bytes s = (.ok (), s'))
    (flushes : ∀ s, ∃ s', sink.flush s = (.ok (), s')) {feed : Feed} (sound : feed.IsSound)
    (s : σ) (close : σ → σ) : ∃ n, (copy sink feed s close).result = .ok n :=
  run_of_isSound takes flushes (sound.limited _) 0 s

end Copy

/-! ## What sinks hold -/

/-- A sink that holds what it has taken, in order: a first part of what each write gave it, and
nothing more after an interruption or a flush. -/
structure Sink.Appends {σ : Type} (sink : Sink σ) (held : σ → Bytes) : Prop where
  write : ∀ s bytes n s', sink.write s bytes = (.ok n, s') → held s' = held s ++ bytes.take n
  interrupted : ∀ s bytes cause s', sink.write s bytes = (.error cause, s') →
    cause.isInterrupted = true → held s' = held s
  flush : ∀ s s', sink.flush s = (.ok (), s') → held s' = held s

section Appends

variable {σ : Type} {sink : Sink σ} {held : σ → Bytes} (h : sink.Appends held)

include h

theorem Sink.Appends.writeAll {bytes : Bytes} {s s' : σ}
    (hw : sink.writeAll bytes s = (.ok (), s')) : held s' = held s ++ bytes := by
  fun_induction Sink.writeAll sink bytes s with
  | case1 s =>
    obtain rfl := (Prod.mk.inj hw).2
    exact (List.append_nil _).symm
  | case2 s b more s₁ hs => cases hw
  | case3 s b more n s₁ hs ih =>
    rw [ih hw, h.write _ _ _ _ hs, List.append_assoc]
    simp
  | case4 s b more cause s₁ hs hi _ ih => rw [ih hw, h.interrupted _ _ _ _ hs hi]
  | case5 s b more cause s₁ hs hi => cases hw

/-- A copy that ends well has put down just what was received, up to an end without a fault. -/
theorem Copy.appends_of_run {feed : Feed} {copied n : Nat} {s : σ}
    (hr : (Copy.run sink copied feed s).result = .ok n) :
    feed.IsSound ∧
      held (Copy.run sink copied feed s).sink = held s ++ (Listing.received feed).1 := by
  have ends : ∀ copied s left, (Copy.ending sink copied s left).result = .ok n →
      held (Copy.ending sink copied s left).sink = held s ++ [] := by
    intro copied s left he
    rw [Copy.ending] at he ⊢
    split at he
    · rename_i s' hf
      exact (h.flush _ _ hf).trans (List.append_nil _).symm
    · cases he
  induction feed generalizing copied s with
  | nil => exact ⟨rfl, ends copied s [] hr⟩
  | cons event rest ih =>
    cases event with
    | chunk bytes =>
      cases bytes with
      | nil => exact ⟨rfl, ends copied s rest hr⟩
      | cons b bytes =>
        cases hw : sink.writeAll (b :: bytes) s with
        | mk result s' =>
          cases result with
          | error cause =>
            rw [Copy.run_of_not_written hw] at hr
            cases hr
          | ok _ =>
            rw [Copy.run_of_written hw] at hr ⊢
            obtain ⟨sound, later⟩ := ih hr
            refine ⟨?_, ?_⟩
            · simpa [Feed.IsSound, Listing.received] using sound
            · change held (Copy.run sink _ rest s').sink = _
              rw [later, h.writeAll hw, List.append_assoc]
              simp [Listing.received]
    | fault cause =>
      rw [Copy.run] at hr ⊢
      by_cases interrupted : cause.isInterrupted = true
      · rw [if_pos interrupted] at hr ⊢
        simp only [Feed.IsSound, Listing.received, if_pos interrupted]
        exact ih hr
      · rw [if_neg interrupted] at hr
        cases hr

theorem Copy.appends_of_copy {feed : Feed} {n : Nat} {s : σ}
    (hc : (copy sink feed s).result = .ok n) :
    feed.IsSound ∧ held (copy sink feed s).sink = held s ++ (Listing.received feed).1 := by
  have run := Copy.appends_of_run h hc
  rwa [Feed.IsSound, Feed.received_limited] at run

end Appends

/-! ## What sinks preserve -/

section Preserved

variable {σ : Type} {sink : Sink σ} {inv : σ → Prop}
  (hwrite : ∀ s bytes, inv s → inv (sink.write s bytes).2)

include hwrite

theorem Sink.writeAll_inv (bytes : Bytes) {s : σ} (hs : inv s) : inv (sink.writeAll bytes s).2 := by
  fun_induction Sink.writeAll sink bytes s with
  | case1 s => exact hs
  | case2 s b more s' h =>
    have := hwrite s (b :: more) hs
    rwa [h] at this
  | case3 s b more n s' h ih =>
    have := hwrite s (b :: more) hs
    rw [h] at this
    exact ih this
  | case4 s b more cause s' h hi _ ih =>
    have := hwrite s (b :: more) hs
    rw [h] at this
    exact ih this
  | case5 s b more cause s' h hi =>
    have := hwrite s (b :: more) hs
    rwa [h] at this

/-- What every write and flush preserves, a copy preserves. -/
theorem Copy.run_sink (hflush : ∀ s, inv s → inv (sink.flush s).2) (copied : Nat) (feed : Feed)
    {s : σ} (hs : inv s) : inv (Copy.run sink copied feed s).sink := by
  have ends : ∀ copied s left, inv s → inv (Copy.ending sink copied s left).sink := by
    intro copied s left hs
    have := hflush s hs
    rw [Copy.ending]
    split <;> simp_all
  induction feed generalizing copied s with
  | nil => exact ends copied s [] hs
  | cons event rest ih =>
    cases event with
    | chunk bytes =>
      cases bytes with
      | nil => exact ends copied s rest hs
      | cons b bytes =>
        have kept := Sink.writeAll_inv hwrite (b :: bytes) hs
        cases hw : sink.writeAll (b :: bytes) s with
        | mk result s' =>
          rw [hw] at kept
          cases result with
          | ok _ =>
            rw [Copy.run_of_written hw]
            exact ih _ kept
          | error cause =>
            rw [Copy.run_of_not_written hw]
            exact kept
    | fault cause =>
      rw [Copy.run]
      split
      · exact ih copied hs
      · exact hs

end Preserved

end InstallMedia
