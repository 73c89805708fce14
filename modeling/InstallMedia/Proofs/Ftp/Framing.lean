import InstallMedia.Ftp.Reply

/-!
# Replies in whatever a server sends

What is read as one reply when nothing is known about the server: its bytes are cut into lines, and
a reply is the lines at the front that are framed as one.

## Main definitions

* `FtpReply.IsSeen`: the lines that are read before a connection ends
* `FtpReply.Framed`: lines that are one reply, whatever its code
* `FtpReply.Continues`: the lines of a reply after its first one

## Main results

* `FtpReply.read_eq_ok_iff`: what is read are the lines at the front that are framed as a reply
* `FtpReply.read_eq_error`: why no reply can be read
-/

namespace InstallMedia.FtpReply

variable {ending : Option IoFault}

/-- A line that a fault at the end of the connection cuts off is not seen. -/
def IsSeen (ending : Option IoFault) (raw : Bytes) : Prop :=
  ending.isSome = true → Lines.isComplete raw = true

theorem isSeen_iff {raw : Bytes} :
    IsSeen ending raw ↔ ¬ (ending.isSome && !Lines.isComplete raw) = true := by
  simp [IsSeen]

/-- Lines that are one reply: a line without a hyphen after its code, or a line with one and all
that follow up to the first that ends the reply. -/
inductive Framed : List Bytes → FtpReply → Prop where
  | single {raw : Bytes} {code : Nat} (opens : opening (lineChars raw) = .ok (code, false)) :
      Framed [raw] ⟨code, String.ofList (lineText (lineChars raw))⟩
  | several {first last : Bytes} {inner : List Bytes} {code : Nat}
      (opens : opening (lineChars first) = .ok (code, true))
      (goes_on : ∀ raw ∈ inner, isLast code (lineChars raw) = false)
      (ends : isLast code (lineChars last) = true) :
      Framed (first :: (inner ++ [last])) ⟨code, String.ofList (lineText (lineChars first) ++
        inner.flatMap (fun raw => '\n' :: lineChars raw) ++ '\n' :: lineText (lineChars last))⟩

/-! ## Lines -/

theorem nextLine_of_isSeen {raw : Bytes} (seen : IsSeen ending raw) (more : List Bytes) :
    nextLine ending (raw :: more) = (.ok (lineChars raw), more) :=
  if_neg (isSeen_iff.mp seen)

theorem nextLine_eq_ok_iff {lines rest : List Bytes} {line : List Char} :
    nextLine ending lines = (.ok line, rest) ↔
      ∃ raw, lines = raw :: rest ∧ IsSeen ending raw ∧ line = lineChars raw := by
  constructor
  · intro h
    cases lines with
    | nil => simp [nextLine] at h
    | cons raw more =>
      rw [nextLine] at h
      split at h
      · simp at h
      · rename_i seen
        obtain ⟨rfl, rfl⟩ : lineChars raw = line ∧ more = rest := by simpa using h
        exact ⟨raw, rfl, isSeen_iff.mpr seen, rfl⟩
  · rintro ⟨raw, rfl, seen, rfl⟩
    exact nextLine_of_isSeen seen rest

/-- Lines `inner` that go on with a reply, and a `last` one that ends it: all of them are seen, and
they make `all` of what was `text` before. -/
structure Continues (ending : Option IoFault) (code : Nat) (text : List Char) (inner : List Bytes)
    (last : Bytes) (all : List Char) : Prop where
  seen : ∀ raw ∈ inner ++ [last], IsSeen ending raw
  goes_on : ∀ raw ∈ inner, isLast code (lineChars raw) = false
  ends : isLast code (lineChars last) = true
  all_eq : all = text ++ inner.flatMap (fun raw => '\n' :: lineChars raw) ++
    '\n' :: lineText (lineChars last)

theorem continues_nil_iff {code : Nat} {text all : List Char} {last : Bytes} :
    Continues ending code text [] last all ↔
      IsSeen ending last ∧ isLast code (lineChars last) = true ∧
        all = text ++ '\n' :: lineText (lineChars last) := by
  constructor
  · rintro ⟨seen, -, ends, rfl⟩
    exact ⟨seen last (by simp), ends, by simp⟩
  · rintro ⟨seen, ends, rfl⟩
    exact ⟨by simpa using seen, by simp, ends, by simp⟩

theorem continues_cons_iff {code : Nat} {text all : List Char} {raw last : Bytes}
    {inner : List Bytes} :
    Continues ending code text (raw :: inner) last all ↔
      IsSeen ending raw ∧ isLast code (lineChars raw) = false ∧
        Continues ending code (text ++ '\n' :: lineChars raw) inner last all := by
  constructor
  · rintro ⟨seen, goes_on, ends, rfl⟩
    exact ⟨seen raw (by simp), goes_on raw (by simp),
      fun raw' h => seen raw' (List.mem_cons_of_mem _ h), fun raw' h => goes_on raw' (by simp [h]),
      ends, by simp⟩
  · rintro ⟨seen, goes_on, more, more', ends, rfl⟩
    exact ⟨by simpa using ⟨seen, by simpa using more⟩, by simpa using ⟨goes_on, more'⟩, ends,
      by simp⟩

/-- Of a list, the first element is the one before the `rest`, or comes before that one. -/
theorem exists_cons_eq_append_iff {α : Type} {x : α} {xs rest : List α}
    {p : List α → α → Prop} :
    (∃ inner last, x :: xs = inner ++ last :: rest ∧ p inner last) ↔
      (xs = rest ∧ p [] x) ∨ ∃ inner last, xs = inner ++ last :: rest ∧ p (x :: inner) last := by
  constructor
  · rintro ⟨inner, last, h, hp⟩
    cases inner with
    | nil =>
      obtain ⟨rfl, rfl⟩ := List.cons.inj h
      exact Or.inl ⟨rfl, hp⟩
    | cons y inner =>
      obtain ⟨rfl, rfl⟩ := List.cons.inj h
      exact Or.inr ⟨inner, last, rfl, hp⟩
  · rintro (⟨rfl, hp⟩ | ⟨inner, last, rfl, hp⟩)
    · exact ⟨[], x, rfl, hp⟩
    · exact ⟨x :: inner, last, rfl, hp⟩

/-- The lines after the first one are read up to the first that ends the reply. -/
theorem readMore_eq_ok_iff {code : Nat} {lines rest : List Bytes} {text all : List Char} :
    readMore ending code text lines = (.ok all, rest) ↔
      ∃ inner last, lines = inner ++ last :: rest ∧ Continues ending code text inner last all := by
  induction lines generalizing text with
  | nil => simp [readMore]
  | cons raw more ih =>
    rw [readMore, exists_cons_eq_append_iff, continues_nil_iff]
    simp only [continues_cons_iff]
    split
    -- A line that is not seen is neither the last one nor one before it.
    · rename_i unseen
      have unseen' : ¬ IsSeen ending raw := fun seen => isSeen_iff.mp seen unseen
      simp [unseen']
    rename_i seen
    rw [← isSeen_iff] at seen
    split
    · rename_i ends
      simp [seen, ends, eq_comm, and_comm]
    -- The line belongs to the reply, and the induction goes on with the lines after it.
    · rename_i goes_on
      rw [ih]
      simp [seen, goes_on]

/-! ## Replies -/

/-- Lines from which a reply is read begin with lines that are framed as one. -/
theorem framed_of_readLines {lines rest : List Bytes} {reply : FtpReply}
    (h : readLines ending lines = (.ok reply, rest)) :
    ∃ own, lines = own ++ rest ∧ (∀ raw ∈ own, IsSeen ending raw) ∧ Framed own reply := by
  rw [readLines] at h
  cases hn : nextLine ending lines with
  | mk result after =>
    rw [hn] at h
    cases result with
    | error fault => simp at h
    | ok line =>
      obtain ⟨first, rfl, seen, rfl⟩ := nextLine_eq_ok_iff.mp hn
      dsimp only at h
      split at h
      · simp at h
      · rename_i code opens
        obtain ⟨rfl, rfl⟩ := Prod.mk.inj h |>.imp_left Except.ok.inj
        exact ⟨[first], rfl, by simpa using seen, .single opens⟩
      · rename_i code opens
        cases hm : readMore ending code (lineText (lineChars first)) after with
        | mk result more =>
          rw [hm] at h
          cases result with
          | error fault => simp at h
          | ok text =>
            obtain ⟨rfl, rfl⟩ := Prod.mk.inj h |>.imp_left Except.ok.inj
            obtain ⟨inner, last, rfl, seen', goes_on, ends, rfl⟩ := readMore_eq_ok_iff.mp hm
            refine ⟨first :: (inner ++ [last]), by simp, ?_, .several opens goes_on ends⟩
            exact List.forall_mem_cons.mpr ⟨seen, seen'⟩

/-- Lines that are framed as a reply are read as that reply. -/
theorem readLines_of_framed {own : List Bytes} {reply : FtpReply} (framed : Framed own reply)
    (seen : ∀ raw ∈ own, IsSeen ending raw) (rest : List Bytes) :
    readLines ending (own ++ rest) = (.ok reply, rest) := by
  cases framed with
  | single opens =>
    rw [readLines, List.singleton_append, nextLine_of_isSeen (seen _ List.mem_cons_self)]
    simp only [opens]
  | @several first last inner code opens goes_on ends =>
    obtain ⟨seen, seen'⟩ := List.forall_mem_cons.mp seen
    have more : readMore ending code (lineText (lineChars first)) (inner ++ last :: rest) =
        (.ok _, rest) :=
      readMore_eq_ok_iff.mpr ⟨_, _, rfl, seen', goes_on, ends, rfl⟩
    rw [readLines, List.cons_append, List.append_assoc, List.singleton_append,
      nextLine_of_isSeen seen]
    simp only [opens, more]

/-- **What is read as a reply** are the lines at the front that are framed as one, whatever its
code; what comes after them stays. -/
theorem read_eq_ok_iff {bytes rest : Bytes} {reply : FtpReply} :
    read ending bytes = (.ok reply, rest) ↔
      ∃ own more, Lines.split bytes = own ++ more ∧ (∀ raw ∈ own, IsSeen ending raw) ∧
        Framed own reply ∧ rest = more.flatten := by
  constructor
  · intro h
    cases hr : readLines ending (Lines.split bytes) with
    | mk result more =>
      obtain ⟨rfl, rfl⟩ : result = .ok reply ∧ more.flatten = rest := by simpa [read, hr] using h
      obtain ⟨own, cut, seen, framed⟩ := framed_of_readLines hr
      exact ⟨own, more, cut, seen, framed, rfl⟩
  · rintro ⟨own, more, cut, seen, framed, rfl⟩
    rw [read, cut, readLines_of_framed framed seen]

/-! ## Faults -/

theorem nextLine_eq_error {lines rest : List Bytes} {fault : FtpFault}
    (h : nextLine ending lines = (.error fault, rest)) : fault = noLine ending := by
  cases lines with
  | nil => exact (Except.error.inj (Prod.mk.inj h).1).symm
  | cons raw more =>
    rw [nextLine] at h
    split at h
    · exact (Except.error.inj (Prod.mk.inj h).1).symm
    · simp at h

theorem readMore_eq_error {code : Nat} {lines rest : List Bytes} {text : List Char}
    {fault : FtpFault} (h : readMore ending code text lines = (.error fault, rest)) :
    fault = noLine ending := by
  induction lines generalizing text with
  | nil => exact (Except.error.inj (Prod.mk.inj h).1).symm
  | cons raw more ih =>
    rw [readMore] at h
    split at h
    · exact (Except.error.inj (Prod.mk.inj h).1).symm
    dsimp only at h
    split at h
    · simp at h
    · exact ih h

theorem opening_eq_error {line : List Char} {fault : FtpFault}
    (h : opening line = .error fault) : fault = .malformedReply (String.ofList line) := by
  rw [opening] at h
  split at h
  · simp at h
  · split at h
    · simp at h
    · split at h
      · simp at h
      · exact (Except.error.inj h).symm
  · exact (Except.error.inj h).symm

/-- A reply cannot be read because no line is left, or because the first line is none of a reply. -/
theorem read_eq_error {bytes : Bytes} {fault : FtpFault}
    (h : (read ending bytes).1 = .error fault) :
    fault = noLine ending ∨ ∃ line, fault = .malformedReply line := by
  change (readLines ending (Lines.split bytes)).1 = .error fault at h
  rw [readLines] at h
  cases hn : nextLine ending (Lines.split bytes) with
  | mk result after =>
    rw [hn] at h
    cases result with
    | error fault' =>
      obtain rfl := Except.error.inj h
      exact Or.inl (nextLine_eq_error hn)
    | ok line =>
      dsimp only at h
      split at h
      · rename_i opens
        obtain rfl := Except.error.inj h
        exact Or.inr ⟨_, opening_eq_error opens⟩
      · simp at h
      · rename_i code _
        cases hm : readMore ending code (lineText line) after with
        | mk result more =>
          rw [hm] at h
          cases result with
          | error fault' =>
            obtain rfl := Except.error.inj h
            exact Or.inl (readMore_eq_error hm)
          | ok text => simp at h

end InstallMedia.FtpReply
