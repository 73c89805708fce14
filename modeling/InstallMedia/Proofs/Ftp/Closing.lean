import InstallMedia.Proofs.Ftp.Framing
import InstallMedia.Proofs.Ftp.Wire
import InstallMedia.Proofs.Text.Split

/-!
# The end of a reply of several lines

The code of a first line is read digit by digit, and the last line is found by the code written out
again.  The two agree on the codes that do not begin with a zero.  A code that does is written out
shorter than it was read, and then no line that is one of a reply ends it.

## Main definitions

* `FtpReply.codeDigits`: the three digits of a code
* `FtpReply.Closing`: a line that is the last one of a reply with some code

## Main results

* `FtpReply.code?_eq_some_iff`: the lines that begin with a code
* `FtpReply.isLast_iff_closing`: a code of three figures is found at the end of its reply
* `FtpReply.opening_of_isLast`: a shorter one is only found on lines that are none of a reply
* `FtpReply.closing_agrees`: when the two readings of a code agree, and what is read then
-/

namespace InstallMedia.FtpReply

variable {code : Nat} {line first : List Char} {ending : Option IoFault}

/-! ## Codes -/

/-- The three digits of a code, leading zeros included. -/
def codeDigits (code : Nat) : List Char :=
  [Nat.digitChar (code / 100), Nat.digitChar (code / 10 % 10), Nat.digitChar (code % 10)]

theorem digitChar_digitValue {c : Char} (h : c.isDigit = true) :
    digitValue c < 10 ∧ Nat.digitChar (digitValue c) = c := by
  obtain ⟨low, high⟩ : 48 ≤ c.toNat ∧ c.toNat ≤ 57 := by
    simpa [Char.isDigit, UInt32.le_iff_toNat_le] using h
  have value : digitValue c = c.toNat - 48 := rfl
  refine ⟨by omega, Char.toNat_inj.mp ?_⟩
  rw [Nat.toNat_digitChar_of_lt_ten (by omega), value]
  omega

/-- A line begins with the code that is written there in three digits. -/
theorem code?_eq_some_iff {rest : List Char} :
    code? line = some (code, rest) ↔ code < 1000 ∧ line = codeDigits code ++ rest := by
  constructor
  · intro h
    rw [code?.eq_def] at h
    split at h
    · rename_i a b c rest'
      split at h
      · rename_i digits
        obtain ⟨⟨ha, hb⟩, hc⟩ : (a.isDigit = true ∧ b.isDigit = true) ∧ c.isDigit = true := by
          simpa using digits
        obtain ⟨rfl, rfl⟩ := Prod.mk.inj (Option.some.inj h)
        obtain ⟨a_lt, ha⟩ := digitChar_digitValue ha
        obtain ⟨b_lt, hb⟩ := digitChar_digitValue hb
        obtain ⟨c_lt, hc⟩ := digitChar_digitValue hc
        -- The digits of the number are the values of the digits that were read.
        have hundreds : ((digitValue a * 10 + digitValue b) * 10 + digitValue c) / 100 =
            digitValue a := by omega
        have tens : ((digitValue a * 10 + digitValue b) * 10 + digitValue c) / 10 % 10 =
            digitValue b := by omega
        have units : ((digitValue a * 10 + digitValue b) * 10 + digitValue c) % 10 =
            digitValue c := by omega
        refine ⟨by omega, ?_⟩
        rw [codeDigits, hundreds, tens, units, ha, hb, hc]
        rfl
      · cases h
    · cases h
  · rintro ⟨small, rfl⟩
    obtain ⟨hundreds, hundredsValue, -⟩ := digitChar_spec (show code / 100 < 10 by omega)
    obtain ⟨tens, tensValue, -⟩ := digitChar_spec (show code / 10 % 10 < 10 by omega)
    obtain ⟨units, unitsValue, -⟩ := digitChar_spec (show code % 10 < 10 by omega)
    simp only [codeDigits, List.cons_append, List.nil_append, code?, hundreds, tens, units,
      hundredsValue, tensValue, unitsValue, Bool.and_self, if_true, Option.some.injEq,
      Prod.mk.injEq, and_true]
    omega

/-- A line that repeats a code and a blank, or the code alone. -/
def Closing (code : Nat) (line : List Char) : Prop :=
  line = codeDigits code ∨ ∃ text, line = codeDigits code ++ ' ' :: text

/-- What the first line of a reply says is its code, and that more lines follow or do not. -/
theorem opening_eq_ok_iff {more : Bool} : opening line = .ok (code, more) ↔
    code < 1000 ∧ (more = false ∧ Closing code line ∨
      more = true ∧ ∃ text, line = codeDigits code ++ '-' :: text) := by
  constructor
  · intro h
    rw [opening] at h
    split at h
    · rename_i code' read
      obtain ⟨rfl, rfl⟩ := Prod.mk.inj (Except.ok.inj h)
      obtain ⟨small, rfl⟩ := code?_eq_some_iff.mp read
      exact ⟨small, Or.inl ⟨rfl, Or.inl (List.append_nil _)⟩⟩
    · rename_i code' c text read
      split at h
      · rename_i blank
        subst blank
        obtain ⟨rfl, rfl⟩ := Prod.mk.inj (Except.ok.inj h)
        obtain ⟨small, rfl⟩ := code?_eq_some_iff.mp read
        exact ⟨small, Or.inl ⟨rfl, Or.inr ⟨text, rfl⟩⟩⟩
      · split at h
        · rename_i hyphen
          subst hyphen
          obtain ⟨rfl, rfl⟩ := Prod.mk.inj (Except.ok.inj h)
          obtain ⟨small, rfl⟩ := code?_eq_some_iff.mp read
          exact ⟨small, Or.inr ⟨rfl, text, rfl⟩⟩
        · cases h
    · cases h
  · rintro ⟨small, ⟨rfl, rfl | ⟨text, rfl⟩⟩ | ⟨rfl, text, rfl⟩⟩
    · rw [opening, code?_eq_some_iff.mpr ⟨small, (List.append_nil _).symm⟩]
    · rw [opening, code?_eq_some_iff.mpr ⟨small, rfl⟩]
      rfl
    · rw [opening, code?_eq_some_iff.mpr ⟨small, rfl⟩]
      rfl

/-! ## Last lines -/

theorem isLast_eq_true_iff : isLast code line = true ↔
    (∃ text, line = codeText code ++ ' ' :: text) ∨ line = codeText code := by
  rw [isLast, Bool.or_eq_true, decide_eq_true_iff, Option.isSome_iff_exists]
  simp only [Split.strip?_eq_some_iff, List.append_assoc, List.singleton_append]

/-- A code of three figures ends a reply where the line is one that closes it. -/
theorem isLast_iff_closing (h : 100 ≤ code) (small : code < 1000) :
    isLast code line = true ↔ Closing code line := by
  have same : codeText code = codeDigits code := codeText_eq h small
  rw [isLast_eq_true_iff, same, Closing, or_comm]

/-- A code that is written out with less than three figures only ends a reply where the line is none
of a reply: a blank is looked for in the place of a digit. -/
theorem opening_of_isLast (h : code < 100) (last : isLast code line = true) (result : Nat × Bool) :
    opening line ≠ .ok result := by
  obtain ⟨code', more⟩ := result
  intro opens
  obtain ⟨small, closes⟩ := opening_eq_ok_iff.mp opens
  obtain ⟨rest, whole⟩ : ∃ rest, line = codeDigits code' ++ rest := by
    rcases closes with ⟨-, alone | ⟨text, blank⟩⟩ | ⟨-, text, hyphen⟩
    · exact ⟨[], by rw [alone, List.append_nil]⟩
    · exact ⟨_, blank⟩
    · exact ⟨_, hyphen⟩
  -- Neither the second nor the third digit is a blank, and both are there.
  have digit (d : Nat) (hd : d < 10) : Nat.digitChar d ≠ ' ' := by
    intro same
    have := (digitChar_spec hd).1
    rw [same] at this
    cases this
  have second := digit (code' / 10 % 10) (by omega)
  have third := digit (code' % 10) (by omega)
  have short : codeText code = [Nat.digitChar code] ∨
      ∃ a b, codeText code = [a, b] := by
    by_cases one : code < 10
    · exact Or.inl (Nat.toDigits_of_lt_base one)
    · rw [codeText, Nat.toDigits_of_base_le (by decide) (by omega),
        Nat.toDigits_of_lt_base (by omega)]
      exact Or.inr ⟨_, _, rfl⟩
  rw [isLast_eq_true_iff, whole, codeDigits] at last
  rcases short with short | ⟨a, b, short⟩ <;> rw [short] at last
  · simp [second] at last
  · simp [third] at last

/-! ## Reading -/

/-- A reply whose first line opens it is read up to a line that closes it, at most. -/
theorem readMore_of_isLast {inner : List Bytes} {last : Bytes} (text : List Char)
    (rest : List Bytes) (seen : ∀ raw ∈ inner ++ [last], IsSeen ending raw)
    (ends : isLast code (lineChars last) = true) :
    ∃ all more, readMore ending code text (inner ++ last :: rest) = (.ok all, more ++ rest) := by
  induction inner generalizing text with
  | nil =>
    have only : Continues ending code text [] last (text ++ '\n' :: lineText (lineChars last)) :=
      continues_nil_iff.mpr ⟨seen last (by simp), ends, rfl⟩
    exact ⟨_, [], readMore_eq_ok_iff.mpr ⟨[], last, rfl, only⟩⟩
  | cons raw inner ih =>
    rw [List.cons_append, readMore, if_neg (isSeen_iff.mp (seen raw (by simp)))]
    dsimp only
    split
    · exact ⟨_, inner ++ [last], Prod.ext rfl (by simp)⟩
    · exact ih _ fun raw' h => seen raw' (List.mem_cons_of_mem _ h)

/-- Where no line ends a reply, all of them are taken for its text, until none is left. -/
theorem readMore_of_goes_on {lines : List Bytes} {text : List Char}
    (goes_on : ∀ raw ∈ lines, isLast code (lineChars raw) = false) :
    readMore ending code text lines = (.error (noLine ending), []) := by
  induction lines generalizing text with
  | nil => rfl
  | cons raw lines ih =>
    obtain ⟨here, later⟩ := List.forall_mem_cons.mp goes_on
    rw [readMore]
    split
    · rfl
    · dsimp only
      rw [if_neg (by simp [here])]
      exact ih later

/-- **The end of a reply agrees with its beginning**, for the codes that do not begin with a zero
and for no others.  With such a code, a reply is read up to the first line that repeats the code and
does not go on, at most.  With any other, all lines that are lines of a reply are taken for its text
until the connection ends. -/
theorem closing_agrees (opens : opening first = .ok (code, true)) :
    (100 ≤ code ↔ ∀ line, isLast code line = true ↔ opening line = .ok (code, false)) ∧
    (code < 100 → ∀ line, isLast code line = true → ∀ result, opening line ≠ .ok result) ∧
    (100 ≤ code → ∀ ending bytes raw inner last rest,
      Lines.split bytes = raw :: (inner ++ last :: rest) → lineChars raw = first →
      (∀ raw' ∈ raw :: (inner ++ [last]), IsSeen ending raw') →
      opening (lineChars last) = .ok (code, false) →
      ∃ text more, read ending bytes = (.ok ⟨code, text⟩, (more ++ rest).flatten)) ∧
    (code < 100 → ∀ ending bytes raw more, Lines.split bytes = raw :: more →
      lineChars raw = first → (∀ raw' ∈ more, ∃ result, opening (lineChars raw') = .ok result) →
      read ending bytes = (.error (noLine ending), [])) := by
  have small : code < 1000 := (opening_eq_ok_iff.mp opens).1
  have closing (line : List Char) :
      opening line = .ok (code, false) ↔ Closing code line := by
    rw [opening_eq_ok_iff]
    simp [small]
  refine ⟨⟨fun h line => ?_, fun agrees => ?_⟩, fun h line last => opening_of_isLast h last,
    ?_, ?_⟩
  · rw [isLast_iff_closing h small, closing]
  · -- The code alone is a line that closes the reply.
    by_contra short
    have alone := (closing (codeDigits code)).mpr (Or.inl rfl)
    exact opening_of_isLast (Nat.lt_of_not_le short) ((agrees _).mpr alone) _ alone
  · intro h ending bytes raw inner last rest cut here seen closes
    obtain ⟨seen, later⟩ := List.forall_mem_cons.mp seen
    have ends := (isLast_iff_closing h small).mpr ((closing _).mp closes)
    obtain ⟨all, more, read⟩ := readMore_of_isLast (lineText first) rest later ends
    refine ⟨String.ofList all, more, ?_⟩
    rw [FtpReply.read, cut, readLines, nextLine_of_isSeen seen]
    simp only [here, opens, read]
  · intro h ending bytes raw more cut here lines
    have goes_on : ∀ raw' ∈ more, isLast code (lineChars raw') = false := by
      intro raw' hr
      obtain ⟨result, opens'⟩ := lines raw' hr
      rw [Bool.eq_false_iff]
      exact fun last => opening_of_isLast h last result opens'
    rw [FtpReply.read, cut, readLines]
    by_cases seen : IsSeen ending raw
    · simp only [nextLine_of_isSeen seen, here, opens, readMore_of_goes_on goes_on]
      rfl
    · have unseen : nextLine ending (raw :: more) = (.error (noLine ending), []) :=
        if_pos (by simpa [isSeen_iff] using seen)
      simp only [unseen]
      rfl

/-- A greeting of several lines is read up to the line that repeats its code. -/
theorem closing_agrees_welcome :
    opening "230-Welcome".toList = .ok (230, true) ∧
      ∀ line, isLast 230 line = true ↔ opening line = .ok (230, false) := by
  have opens : opening "230-Welcome".toList = .ok (230, true) := by rfl
  exact ⟨opens, (closing_agrees opens).1.mp (by decide)⟩

/-- A reply whose code begins with a zero is not ended by the line that repeats the code: that line,
and the reply after it, are taken for its text. -/
theorem closing_disagrees :
    opening "042-a".toList = .ok (42, true) ∧ opening "042 b".toList = .ok (42, false) ∧
      isLast 42 "042 b".toList = false ∧
      read none (Utf8.encode "042-a\r\n042 b\r\n220 ready\r\n") = (.error .closed, []) := by
  refine ⟨by rfl, by rfl, by rfl, ?_⟩
  decide +kernel

end InstallMedia.FtpReply
