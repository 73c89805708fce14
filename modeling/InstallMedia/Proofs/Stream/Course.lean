import InstallMedia.Proofs.Stream.Copy
import InstallMedia.Stream.Gauged

/-!
# The course of a copy

All that a copy asks of its sink is noted, with the answers.  A copy passes over a first part of its
feed, every piece of which it writes whole, and then it ends in one of four ways: the feed is at its
end and the flush is done, or the flush fails, a read fails, or a write fails.  In each of them the
sink is given up at last.  What a sink has taken is a first part of what is received from the feed,
and all of it after a copy that ended well, however the feed was cut into pieces.

## Main definitions

* `SinkEvent`, `Sink.noted`: what is asked of a sink, and the sink that keeps note of it
* `Sink.taken`: the bytes that a sink has taken
* `Copy.Course`: what is asked of a sink and of a feed in the course of a copy, and how it ends
* `Sink.Willing`: a sink that never fails

## Main results

* `Copy.run_noted`: keeping note changes nothing
* `Copy.run_course`: the course of every copy
* `copy_exact`: what a copy has put down, in whatever pieces it was read and taken
-/

namespace InstallMedia

/-! ## Keeping note -/

/-- What is asked of a sink, and what it answers. -/
inductive SinkEvent where
  | write (given : Bytes) (answer : Except IoFault Nat)
  | flush (answer : Except IoFault Unit)
  | close

namespace SinkEvent

/-- The bytes that the sink has taken. -/
def taken : SinkEvent → Bytes
  | write given (.ok n) => given.take n
  | _ => []

/-- A write after which writing goes on: it has taken something, or was interrupted. -/
def GoesOn : SinkEvent → Prop
  | write _ (.ok n) => 0 < n
  | write _ (.error cause) => cause.isInterrupted = true
  | _ => False

/-- A write that ends all writing: it failed, or has taken nothing of something. -/
inductive Refuses (given : Bytes) : IoFault → SinkEvent → Prop
  | failed {cause : IoFault} (uninterrupted : cause.isInterrupted = false) :
    Refuses given cause (write given (.error cause))
  | idle : Refuses given .writeZero (write given (.ok 0))

theorem Refuses.taken_eq {given : Bytes} {cause : IoFault} {event : SinkEvent}
    (h : event.Refuses given cause) : event.taken = [] := by
  cases h with
  | failed => rfl
  | idle => rfl

end SinkEvent

namespace Sink

variable {σ : Type} {sink : Sink σ} {bytes : Bytes}

/-- The same sink, which also keeps note of what is asked of it. -/
def noted (sink : Sink σ) : Sink (σ × List SinkEvent) where
  write s bytes :=
    let (answer, next) := sink.write s.1 bytes
    (answer, next, s.2 ++ [.write bytes answer])
  flush s :=
    let (answer, next) := sink.flush s.1
    (answer, next, s.2 ++ [.flush answer])
  patience s := sink.patience s.1
  patience_lt s bytes cause s' h hi := by
    obtain ⟨answer, rfl⟩ := Prod.mk.inj h
    exact sink.patience_lt s.1 bytes cause _ (Prod.ext answer rfl) hi

/-- Giving up the sink is noted, too. -/
def noteClose (close : σ → σ) (s : σ × List SinkEvent) : σ × List SinkEvent :=
  (close s.1, s.2 ++ [.close])

/-- The bytes that a sink has taken, in order. -/
def taken (events : List SinkEvent) : Bytes := events.flatMap SinkEvent.taken

theorem taken_append (events events' : List SinkEvent) :
    taken (events ++ events') = taken events ++ taken events' :=
  List.flatMap_append

/-- An event by which nothing is taken. -/
theorem taken_concat (events : List SinkEvent) {event : SinkEvent} (h : event.taken = []) :
    taken (events ++ [event]) = taken events := by
  rw [taken_append]
  simp [taken, h]

variable {s s' : σ × List SinkEvent}

theorem noted_write {answer : Except IoFault Nat} (h : sink.noted.write s bytes = (answer, s')) :
    sink.write s.1 bytes = (answer, s'.1) ∧ s'.2 = s.2 ++ [.write bytes answer] := by
  obtain ⟨rfl, rfl⟩ := Prod.mk.inj h
  exact ⟨rfl, rfl⟩

/-- Keeping note of writes changes nothing. -/
theorem writeAll_noted (sink : Sink σ) (bytes : Bytes) (s : σ × List SinkEvent) :
    sink.writeAll bytes s.1 =
      ((sink.noted.writeAll bytes s).1, (sink.noted.writeAll bytes s).2.1) := by
  fun_induction Sink.writeAll sink.noted bytes s with
  | case1 s => rw [Sink.writeAll]
  | case2 s b more s' h => rw [writeAll_cons, (noted_write h).1]
  | case3 s b more n s' h ih =>
    rw [writeAll_cons, (noted_write h).1]
    exact ih
  | case4 s b more cause s' h hi _ ih =>
    rw [writeAll_cons, (noted_write h).1]
    dsimp only
    rw [if_pos hi, ih]
  | case5 s b more cause s' h hi =>
    rw [writeAll_cons, (noted_write h).1]
    dsimp only
    rw [if_neg hi]

end Sink

/-! ## What a write of some bytes comes to -/

/-- Writes after each of which writing goes on, and by which just these bytes were taken. -/
structure Writes (events : List SinkEvent) (bytes : Bytes) : Prop where
  goesOn : ∀ event ∈ events, event.GoesOn
  taken_eq : Sink.taken events = bytes

namespace Writes

variable {events events' : List SinkEvent} {bytes bytes' : Bytes}

theorem nil : Writes [] [] := ⟨by simp, rfl⟩

theorem append (h : Writes events bytes) (h' : Writes events' bytes') :
    Writes (events ++ events') (bytes ++ bytes') := by
  refine ⟨fun event hevent => ?_, ?_⟩
  · rcases List.mem_append.mp hevent with hevent | hevent
    · exact h.goesOn event hevent
    · exact h'.goesOn event hevent
  · rw [Sink.taken_append, h.taken_eq, h'.taken_eq]

theorem single {event : SinkEvent} (goesOn : event.GoesOn) : Writes [event] event.taken :=
  ⟨by simpa using goesOn, List.append_nil _⟩

theorem part (given : Bytes) (n : Nat) :
    Writes [.write given (.ok (n + 1))] (given.take (n + 1)) :=
  .single n.succ_pos

theorem interrupted (given : Bytes) {cause : IoFault} (h : cause.isInterrupted = true) :
    Writes [.write given (.error cause)] [] :=
  .single h

end Writes

namespace Sink

variable {σ : Type} {sink : Sink σ} {bytes : Bytes} {s s' : σ × List SinkEvent}

/-- Bytes that were written whole were taken, each of them once. -/
theorem writes_of_writeAll_ok (h : sink.noted.writeAll bytes s = (.ok (), s')) :
    ∃ events, s'.2 = s.2 ++ events ∧ Writes events bytes := by
  fun_induction Sink.writeAll sink.noted bytes s with
  | case1 s =>
    obtain rfl := (Prod.mk.inj h).2
    exact ⟨[], (List.append_nil _).symm, .nil⟩
  | case2 s b more s₁ hw => cases h
  | case3 s b more n s₁ hw ih =>
    obtain ⟨later, noted, writes⟩ := ih h
    have whole : (b :: more).take (n + 1) ++ more.drop n = b :: more :=
      List.take_append_drop (n + 1) (b :: more)
    have all := (Writes.part (b :: more) n).append writes
    rw [whole] at all
    refine ⟨_, ?_, all⟩
    rw [noted, (noted_write hw).2, List.append_assoc]
  -- An interrupted write takes nothing, and the same bytes are given again.
  | case4 s b more cause s₁ hw hi _ ih =>
    obtain ⟨later, noted, writes⟩ := ih h
    refine ⟨_, ?_, (Writes.interrupted (b :: more) hi).append writes⟩
    rw [noted, (noted_write hw).2, List.append_assoc]
  | case5 s b more cause s₁ hw hi => cases h

/-- Bytes that were not written whole were taken up to the write that ended all. -/
theorem writes_of_writeAll_error {cause : IoFault}
    (h : sink.noted.writeAll bytes s = (.error cause, s')) :
    ∃ events refusal part given, s'.2 = s.2 ++ (events ++ [refusal]) ∧ Writes events part ∧
      bytes = part ++ given ∧ refusal.Refuses given cause := by
  fun_induction Sink.writeAll sink.noted bytes s with
  | case1 s => cases h
  | case2 s b more s₁ hw =>
    obtain ⟨⟨⟩, rfl⟩ := Prod.mk.inj h
    exact ⟨[], _, [], b :: more, (noted_write hw).2, .nil, rfl, .idle⟩
  | case3 s b more n s₁ hw ih =>
    obtain ⟨later, refusal, part, given, noted, writes, split, refuses⟩ := ih h
    refine ⟨_, refusal, _, given, ?_, (Writes.part (b :: more) n).append writes, ?_, refuses⟩
    · rw [noted, (noted_write hw).2, List.append_assoc, List.append_assoc]
    · rw [List.append_assoc, ← split]
      exact (List.take_append_drop (n + 1) (b :: more)).symm
  | case4 s b more cause s₁ hw hi _ ih =>
    obtain ⟨later, refusal, part, given, noted, writes, split, refuses⟩ := ih h
    refine ⟨_, refusal, _, given, ?_, (Writes.interrupted (b :: more) hi).append writes, split,
      refuses⟩
    rw [noted, (noted_write hw).2, List.append_assoc, List.append_assoc]
  | case5 s b more cause s₁ hw hi =>
    obtain ⟨⟨⟩, rfl⟩ := Prod.mk.inj h
    exact ⟨[], _, [], b :: more, (noted_write hw).2, .nil, rfl, .failed (by simpa using hi)⟩

end Sink

/-! ## What a feed gives before its end -/

/-- What is passed over before a feed ends: some bytes, or an interruption. -/
def ReadEvent.IsPassed : ReadEvent → Prop
  | chunk bytes => bytes ≠ []
  | fault cause => cause.isInterrupted = true

def ReadEvent.bytes : ReadEvent → Bytes
  | chunk bytes => bytes
  | fault _ => []

namespace Feed

/-- The bytes of a feed all of which is passed over. -/
def bytes (passed : Feed) : Bytes := passed.flatMap ReadEvent.bytes

theorem bytes_cons (event : ReadEvent) (passed : Feed) :
    bytes (event :: passed) = event.bytes ++ passed.bytes :=
  rfl

/-- A feed that is at its end, and what comes after that. -/
inductive IsOver : Feed → Feed → Prop
  | nil : IsOver [] []
  | empty {left : Feed} : IsOver (.chunk [] :: left) left

/-- A piece that comes next is received first. -/
theorem prefix_received_chunk (bytes : Bytes) (rest : Feed) :
    bytes <+: (Listing.received (.chunk bytes :: rest)).1 := by
  cases bytes with
  | nil => exact List.nil_prefix
  | cons b bytes =>
    rw [Listing.received]
    · exact List.prefix_append _ _
    · simp

theorem IsOver.received_eq {rest left : Feed} (h : rest.IsOver left) :
    Listing.received rest = ([], none) := by
  cases h with
  | nil => rfl
  | empty => rfl

/-- What comes after a part that is passed over is received after its bytes. -/
theorem received_append_passed {passed : Feed} (h : ∀ event ∈ passed, event.IsPassed)
    (rest : Feed) : Listing.received (passed ++ rest) =
      (passed.bytes ++ (Listing.received rest).1, (Listing.received rest).2) := by
  induction passed with
  | nil => rfl
  | cons event passed ih =>
    have later := ih fun event hevent => h event (List.mem_cons_of_mem _ hevent)
    have here := h event List.mem_cons_self
    cases event with
    | chunk bytes =>
      cases bytes with
      | nil => exact absurd rfl here
      | cons b bytes => simp [Listing.received, later, Feed.bytes, ReadEvent.bytes]
    | fault cause =>
      have interrupted : cause.isInterrupted = true := here
      simp [Listing.received, later, Feed.bytes, ReadEvent.bytes, interrupted]

end Feed

/-! ## How a copy ends -/

namespace Copy

/-- How far a copy got before it ended: it has passed over a first part of the feed and written all
of that, and of the piece after it a part. -/
structure Progress (feed passed rest : Feed) (writes : List SinkEvent) (part : Bytes) : Prop where
  feed_eq : feed = passed ++ rest
  passes : ∀ event ∈ passed, event.IsPassed
  writes : Writes writes (passed.bytes ++ part)

/-- What is asked of a sink and of a feed in the course of a copy, and how it ends, so many bytes
having been copied before.  Nothing is asked any more after what has ended the copy. -/
inductive Course (copied : Nat) (feed : Feed) :
    Except IoFault Nat → List SinkEvent → Feed → Nat → Prop
  | done {passed rest left : Feed} {writes : List SinkEvent}
      (progress : Progress feed passed rest writes []) (isOver : rest.IsOver left) :
    Course copied feed (.ok (copied + passed.bytes.length)) (writes ++ [.flush (.ok ())]) left
      (passed.length + 1)
  | notFlushed {passed rest left : Feed} {writes : List SinkEvent} {cause : IoFault}
      (progress : Progress feed passed rest writes []) (isOver : rest.IsOver left) :
    Course copied feed (.error cause) (writes ++ [.flush (.error cause)]) left (passed.length + 1)
  | notRead {passed left : Feed} {writes : List SinkEvent} {cause : IoFault}
      (progress : Progress feed passed (.fault cause :: left) writes [])
      (uninterrupted : cause.isInterrupted = false) :
    Course copied feed (.error cause) writes left (passed.length + 1)
  | notWritten {passed left : Feed} {writes : List SinkEvent} {refusal : SinkEvent}
      {part given : Bytes} {cause : IoFault}
      (progress : Progress feed passed (.chunk (part ++ given) :: left) writes part)
      (refuses : refusal.Refuses given cause) :
    Course copied feed (.error cause) (writes ++ [refusal]) left (passed.length + 1)

variable {feed passed rest left : Feed} {event : ReadEvent} {before events : List SinkEvent}
  {part : Bytes} {copied reads : Nat} {result : Except IoFault Nat}

/-- Nothing has been passed over yet. -/
theorem Progress.start (writes : Writes events part) : Progress feed [] feed events part :=
  ⟨rfl, by simp, writes⟩

theorem Progress.cons (h : Progress feed passed rest events part) (passes : event.IsPassed)
    (written : Writes before event.bytes) :
    Progress (event :: feed) (event :: passed) rest (before ++ events) part := by
  refine ⟨by rw [h.feed_eq, List.cons_append], ?_, ?_⟩
  · exact List.forall_mem_cons.mpr ⟨passes, h.passes⟩
  · have all := written.append h.writes
    rwa [← List.append_assoc] at all

/-- What was passed over and written first comes first in the course. -/
theorem Course.cons (h : Course (copied + event.bytes.length) feed result events left reads)
    (passes : event.IsPassed) (written : Writes before event.bytes) :
    Course copied (event :: feed) result (before ++ events) left (reads + 1) := by
  cases h with
  | @done passed _ _ _ progress isOver =>
    have length : copied + event.bytes.length + passed.bytes.length =
        copied + (Feed.bytes (event :: passed)).length := by
      rw [Feed.bytes_cons, List.length_append, Nat.add_assoc]
    rw [length, ← List.append_assoc]
    exact .done (progress.cons passes written) isOver
  | notFlushed progress isOver =>
    rw [← List.append_assoc]
    exact .notFlushed (progress.cons passes written) isOver
  | notRead progress uninterrupted => exact .notRead (progress.cons passes written) uninterrupted
  | notWritten progress refuses =>
    rw [← List.append_assoc]
    exact .notWritten (progress.cons passes written) refuses

variable {σ : Type} (sink : Sink σ)

/-- The copy as another sink has it. -/
def mapSink {τ : Type} (f : σ → τ) (c : Copy σ) : Copy τ :=
  ⟨c.result, f c.sink, c.left, c.reads⟩

/-- At the end of a feed all that is asked is a flush. -/
theorem ending_course (isOver : rest.IsOver left) (s : σ × List SinkEvent) :
    ∃ events, (ending sink.noted copied s left).afterRead.sink.2 = s.2 ++ events ∧
      Course copied rest (ending sink.noted copied s left).result events
        (ending sink.noted copied s left).left
        (ending sink.noted copied s left).afterRead.reads := by
  cases flushed : sink.flush s.1 with
  | mk answer next =>
    have noted : sink.noted.flush s = (answer, next, s.2 ++ [.flush answer]) := by
      simp only [Sink.noted, flushed]
    rw [ending, noted]
    cases answer with
    | ok _ => exact ⟨_, rfl, .done (.start .nil) isOver⟩
    | error cause => exact ⟨_, rfl, .notFlushed (.start .nil) isOver⟩

/-- **The course of every copy.** -/
theorem run_course (copied : Nat) (feed : Feed) (s : σ × List SinkEvent) :
    ∃ events, (run sink.noted copied feed s).sink.2 = s.2 ++ events ∧
      Course copied feed (run sink.noted copied feed s).result events
        (run sink.noted copied feed s).left (run sink.noted copied feed s).reads := by
  -- What is passed over first is put before the course of the rest.
  induction feed generalizing copied s with
  | nil => exact ending_course sink .nil s
  | cons event rest ih =>
    cases event with
    | chunk bytes =>
      cases bytes with
      | nil => exact ending_course sink .empty s
      | cons b bytes =>
        cases hw : sink.noted.writeAll (b :: bytes) s with
        | mk result s' =>
          cases result with
          | ok _ =>
            obtain ⟨before, noted, written⟩ := Sink.writes_of_writeAll_ok hw
            obtain ⟨events, later, course⟩ := ih (copied + (b :: bytes).length) s'
            rw [run_of_written hw]
            refine ⟨before ++ events, ?_, course.cons (List.cons_ne_nil _ _) written⟩
            rw [← List.append_assoc, ← noted]
            exact later
          | error cause =>
            obtain ⟨before, refusal, part, given, noted, writes, split, refuses⟩ :=
              Sink.writes_of_writeAll_error hw
            rw [run_of_not_written hw, split]
            exact ⟨_, noted, .notWritten (.start writes) refuses⟩
    | fault cause =>
      rw [run]
      by_cases interrupted : cause.isInterrupted = true
      · rw [if_pos interrupted]
        obtain ⟨events, later, course⟩ := ih (copied + (ReadEvent.fault cause).bytes.length) s
        exact ⟨events, later, course.cons interrupted .nil⟩
      · rw [if_neg interrupted]
        exact ⟨[], (List.append_nil _).symm,
          .notRead (.start .nil) (Bool.eq_false_iff.mpr interrupted)⟩

/-- Keeping note changes nothing. -/
theorem run_noted (copied : Nat) (feed : Feed) (s : σ × List SinkEvent) :
    (run sink.noted copied feed s).mapSink Prod.fst = run sink copied feed s.1 := by
  have ends : ∀ copied s left, (ending sink.noted copied s left).mapSink Prod.fst =
      ending sink copied s.1 left := by
    intro copied s left
    rw [ending, ending]
    cases flushed : sink.flush s.1 with
    | mk answer next =>
      have noted : sink.noted.flush s = (answer, next, s.2 ++ [.flush answer]) := by
        simp only [Sink.noted, flushed]
      rw [noted]
      cases answer <;> rfl
  induction feed generalizing copied s with
  | nil => exact congrArg afterRead (ends copied s [])
  | cons event rest ih =>
    cases event with
    | chunk bytes =>
      cases bytes with
      | nil => exact congrArg afterRead (ends copied s rest)
      | cons b bytes =>
        have plain := Sink.writeAll_noted sink (b :: bytes) s
        cases hw : sink.noted.writeAll (b :: bytes) s with
        | mk result s' =>
          rw [hw] at plain
          cases result with
          | ok _ =>
            rw [run_of_written hw, run_of_written plain, ← ih]
            rfl
          | error cause =>
            rw [run_of_not_written hw, run_of_not_written plain]
            rfl
    | fault cause =>
      rw [run, run]
      split
      · exact congrArg afterRead (ih copied s)
      · rfl

/-! ## What a course says of the bytes -/

theorem Progress.received_eq (h : Progress feed passed rest events part) :
    Listing.received feed =
      (passed.bytes ++ (Listing.received rest).1, (Listing.received rest).2) := by
  rw [h.feed_eq, Feed.received_append_passed h.passes]

theorem Progress.taken_isPrefix (h : Progress feed passed rest events part)
    (first : part <+: (Listing.received rest).1) :
    Sink.taken events <+: (Listing.received feed).1 := by
  rw [h.writes.taken_eq, h.received_eq]
  exact (List.prefix_append_right_inj _).mpr first

/-- However a copy ended, a first part of what is received was taken. -/
theorem Course.taken_isPrefix (h : Course copied feed result events left reads) :
    Sink.taken events <+: (Listing.received feed).1 := by
  cases h with
  | done progress isOver =>
    rw [Sink.taken_concat _ rfl]
    exact progress.taken_isPrefix List.nil_prefix
  | notFlushed progress isOver =>
    rw [Sink.taken_concat _ rfl]
    exact progress.taken_isPrefix List.nil_prefix
  | notRead progress uninterrupted => exact progress.taken_isPrefix List.nil_prefix
  | @notWritten _ left _ _ part given _ progress refuses =>
    rw [Sink.taken_concat _ refuses.taken_eq]
    -- The part was taken of a piece that was read whole.
    refine progress.taken_isPrefix ((List.prefix_append part given).trans ?_)
    exact Feed.prefix_received_chunk (part ++ given) left

/-- After a copy that ended well, all that is received up to the end of the feed was taken. -/
theorem Course.delivers {n : Nat} (h : Course copied feed (.ok n) events left reads) :
    feed.Delivers (Sink.taken events) ∧ n = copied + (Sink.taken events).length ∧
      ∃ writes, events = writes ++ [.flush (.ok ())] ∧ ∀ event ∈ writes, event.GoesOn := by
  cases h with
  | @done passed rest _ writes progress isOver =>
    have taken : Sink.taken (writes ++ [.flush (.ok ())]) = passed.bytes := by
      rw [Sink.taken_concat _ rfl, progress.writes.taken_eq, List.append_nil]
    rw [taken]
    refine ⟨?_, rfl, writes, rfl, progress.writes.goesOn⟩
    rw [Feed.Delivers, progress.received_eq, isOver.received_eq, List.append_nil]

/-- That the feed was read in pieces of a bounded size does not matter for what was taken. -/
theorem Course.delivers_limited {size n : Nat}
    (h : Course 0 (feed.limited size) (.ok n) events left reads) :
    feed.Delivers (Sink.taken events) ∧ n = (Sink.taken events).length ∧
      ∃ writes, events = writes ++ [.flush (.ok ())] ∧ ∀ event ∈ writes, event.GoesOn := by
  obtain ⟨delivers, length, flushed⟩ := h.delivers
  rw [Feed.Delivers, Feed.received_limited] at delivers
  exact ⟨delivers, length.trans (Nat.zero_add _), flushed⟩

end Copy

/-! ## Sinks that never fail -/

/-- A sink that never fails: a write of something takes some of it, or is interrupted, and every
flush is done. -/
structure Sink.Willing {σ : Type} (sink : Sink σ) : Prop where
  write : ∀ s bytes, bytes ≠ [] → (SinkEvent.write bytes (sink.write s bytes).1).GoesOn
  flush : ∀ s, (sink.flush s).1 = .ok ()

namespace Sink.Willing

variable {σ : Type} {sink : Sink σ} (willing : sink.Willing)

include willing

theorem writeAll (bytes : Bytes) (s : σ) : ∃ s', sink.writeAll bytes s = (.ok (), s') := by
  fun_induction Sink.writeAll sink bytes s with
  | case1 s => exact ⟨s, rfl⟩
  | case2 s b more s' h =>
    have goesOn := willing.write s (b :: more) (List.cons_ne_nil _ _)
    rw [h] at goesOn
    exact absurd goesOn (Nat.lt_irrefl 0)
  | case3 s b more n s' h ih => exact ih
  | case4 s b more cause s' h hi _ ih => exact ih
  | case5 s b more cause s' h hi =>
    have goesOn := willing.write s (b :: more) (List.cons_ne_nil _ _)
    rw [h] at goesOn
    exact absurd goesOn hi

/-- A sound feed is copied to its end by a sink that never fails. -/
theorem copy_result {feed : Feed} (sound : feed.IsSound) (s : σ) (close : σ → σ) :
    ∃ n, (copy sink feed s close).result = .ok n :=
  Copy.copy_of_isSound willing.writeAll (fun s => ⟨_, Prod.ext (willing.flush s) rfl⟩) sound s close

end Sink.Willing

/-! ## Every copy -/

section Copies

variable {σ : Type} (sink : Sink σ) (close : σ → σ) (feed : Feed) (s : σ)

/-- Keeping note of a whole copy changes nothing. -/
theorem copy_noted : (copy sink.noted feed (s, []) (Sink.noteClose close)).mapSink Prod.fst =
    copy sink feed s close := by
  have run := Copy.run_noted sink 0 (feed.limited (copyBlock - 1)) (s, [])
  exact congrArg (Copy.closed close) run

/-- Giving the sink up is the last event of a copy. -/
theorem copy_course :
    let c := copy sink.noted feed (s, []) (Sink.noteClose close)
    ∃ events, c.sink.2 = events ++ [.close] ∧
      Copy.Course 0 (feed.limited (copyBlock - 1)) c.result events c.left c.reads := by
  obtain ⟨events, noted, course⟩ := Copy.run_course sink 0 (feed.limited (copyBlock - 1)) (s, [])
  refine ⟨events, ?_, course⟩
  change (Copy.run sink.noted 0 _ (s, [])).sink.2 ++ [.close] = _
  rw [noted, List.nil_append]

/-- A sink that never fails gets all of a feed that ends without a fault. -/
theorem copy_of_willing (sound : feed.IsSound) (willing : sink.Willing) :
    let c := copy sink.noted feed (s, []) (Sink.noteClose close)
    c.result = .ok (Listing.received feed).1.length ∧
      Sink.taken c.sink.2 = (Listing.received feed).1 := by
  intro c
  obtain ⟨n, copied⟩ := willing.copy_result sound s close
  rw [← copy_noted sink close feed s] at copied
  have done : c.result = .ok n := copied
  obtain ⟨events, noted, course⟩ := copy_course sink close feed s
  rw [show (copy sink.noted feed (s, []) (Sink.noteClose close)).result = _ from done] at course
  obtain ⟨delivers, length, -⟩ := course.delivers_limited
  have taken : Sink.taken c.sink.2 = Sink.taken events := by
    rw [show c.sink.2 = _ from noted, Sink.taken_concat _ rfl]
  rw [done, taken, delivers, length]
  exact ⟨rfl, rfl⟩

end Copies

/-- **Copies are exact.**  Whatever a feed gives and a sink answers, the events of a copy end with
giving the sink up, and what was taken is a first part of what is received.  After a copy that ended
well it is all of that, up to an end without a fault; so many bytes are reported, and the sink was
flushed once, after the last write.  Otherwise the course says which fault came first, what was
written before it, and that nothing was asked after it.  A sink that never fails gets all of a sound
feed.  So feeds that bring the same bytes are copied alike, in whatever pieces they are read and
taken and however often that is interrupted. -/
theorem copy_exact {σ : Type} (sink : Sink σ) (close : σ → σ) (feed : Feed) (s : σ) :
    let c := copy sink.noted feed (s, []) (Sink.noteClose close)
    c.mapSink Prod.fst = copy sink feed s close ∧
      (∃ events, c.sink.2 = events ++ [.close] ∧
        Copy.Course 0 (feed.limited (copyBlock - 1)) c.result events c.left c.reads ∧
        Sink.taken events <+: (Listing.received feed).1 ∧
        ∀ n, c.result = .ok n →
          feed.Delivers (Sink.taken events) ∧ n = (Sink.taken events).length ∧
            ∃ writes, events = writes ++ [.flush (.ok ())] ∧ ∀ event ∈ writes, event.GoesOn) ∧
      (feed.IsSound → sink.Willing → c.result = .ok (Listing.received feed).1.length) ∧
      ∀ (τ : Type) (other : Sink τ) (close' : τ → τ) (feed' : Feed) (t : τ),
        feed.IsSound → Listing.received feed' = Listing.received feed → sink.Willing →
        other.Willing →
          let c' := copy other.noted feed' (t, []) (Sink.noteClose close')
          c'.result = c.result ∧ Sink.taken c'.sink.2 = Sink.taken c.sink.2 := by
  intro c
  refine ⟨copy_noted sink close feed s, ?_, fun sound willing => ?_, ?_⟩
  · obtain ⟨events, noted, course⟩ := copy_course sink close feed s
    have taken := course.taken_isPrefix
    rw [Feed.received_limited] at taken
    refine ⟨events, noted, course, taken, fun n done => ?_⟩
    rw [show (copy sink.noted feed (s, []) (Sink.noteClose close)).result = _ from done] at course
    exact course.delivers_limited
  · exact (copy_of_willing sink close feed s sound willing).1
  · intro τ other close' feed' t sound same willing willing' c'
    have sound' : feed'.IsSound := by rwa [Feed.IsSound, same]
    obtain ⟨result, taken⟩ := copy_of_willing sink close feed s sound willing
    obtain ⟨result', taken'⟩ := copy_of_willing other close' feed' t sound' willing'
    rw [same] at result' taken'
    exact ⟨result'.trans result.symm, taken'.trans taken.symm⟩

/-! ## Gauged sinks -/

/-- A gauged sink with room for everything never fails, however little it takes at a time. -/
theorem Gauge.sink_willing {gauge : Gauge} (room : gauge.room = none) (step : gauge.step ≠ some 0)
    (flushes : gauge.flushFails = false) : gauge.sink.Willing where
  write t bytes something := by
    have nonempty := List.length_pos_iff.mpr something
    have taken : 0 < (within gauge.step bytes).length := by
      cases bound : gauge.step with
      | none => exact nonempty
      | some n =>
        have : n ≠ 0 := fun zero => step (by rw [bound, zero])
        simp only [within, List.length_take]
        omega
    have answer : (gauge.sink.write t bytes).1 = .ok (within gauge.step bytes).length := by
      simp [Gauge.sink, Gauge.write, portion, room]
    rw [answer]
    exact taken
  flush t := by
    simp [Gauge.sink, flushes]

/-- Two pieces, between which the reading is interrupted, are taken two bytes at a time; the same
bytes in one piece are taken at once. -/
theorem copy_pairs_exact :
    let pieces : Feed := [.chunk [1, 2, 3], .fault ⟨.interrupted, "again"⟩, .chunk [4, 5]]
    let pairs : Gauge := ⟨none, some 2, false⟩
    let whole : Gauge := ⟨none, none, false⟩
    let c := copy pairs.sink.noted pieces ({}, []) (Sink.noteClose Gauge.close)
    let c' := copy whole.sink.noted (.ofBytes [1, 2, 3, 4, 5]) ({}, []) (Sink.noteClose Gauge.close)
    pieces.IsSound ∧ pairs.sink.Willing ∧ whole.sink.Willing ∧
      c.result = .ok 5 ∧ pieces.Delivers (Sink.taken c.sink.2) ∧
      c'.result = c.result ∧ Sink.taken c'.sink.2 = Sink.taken c.sink.2 := by
  intro pieces pairs whole c c'
  have sound : pieces.IsSound := rfl
  have willing : pairs.sink.Willing := Gauge.sink_willing rfl (by decide) rfl
  have willing' : whole.sink.Willing := Gauge.sink_willing rfl (by decide) rfl
  obtain ⟨-, ⟨events, noted, -, -, copied⟩, all, alike⟩ :=
    copy_exact pairs.sink Gauge.close pieces {}
  have done : c.result = .ok 5 := all sound willing
  obtain ⟨delivers, -⟩ := copied 5 done
  refine ⟨sound, willing, willing', done, ?_, ?_⟩
  · rw [show c.sink.2 = _ from noted, Sink.taken_concat _ rfl]
    exact delivers
  · exact alike Gauge.Tally whole.sink Gauge.close (.ofBytes [1, 2, 3, 4, 5]) {} sound rfl willing
      willing'

end InstallMedia
