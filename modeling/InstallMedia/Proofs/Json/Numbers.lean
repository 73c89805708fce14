import InstallMedia.Proofs.Json.Reading

/-!
# Reading numbers

A number of digits only is read exactly as long as it fits 64 bits.  Any other number is read as a
binary value or as a negative number, whatever its digits are, and is refused where a number of 64
bits is wanted.

## Main definitions

* `Json.Inexact`: a reader of numbers that never gives a plain one

## Main results

* `Json.Numeral.accumulate_of_lt`, `Json.Numeral.dropped_of_le`: the digits that fit 64 bits
* `Json.Reads.unsigned_number`, `Json.Reads.unsigned_numeral`: where a number of 64 bits is wanted
-/

namespace InstallMedia.Json

/-! ## Digits -/

namespace Numeral

theorem le_ofDigitChars (ds : List Char) (n : Nat) : n ≤ Nat.ofDigitChars 10 ds n := by
  induction ds generalizing n with
  | nil => exact Nat.le_refl n
  | cons d ds ih =>
    rw [Nat.ofDigitChars_cons]
    exact Nat.le_trans (by omega) (ih _)

theorem longer_eq (n : Nat) (d : Char) :
    n * 10 + digitValue d = 10 * n + (d.toNat - '0'.toNat) := by
  rw [Nat.mul_comm]
  rfl

/-- Digits that fit are all of the significand. -/
theorem accumulate_of_lt {ds : List Char} {n : Nat} (h : Nat.ofDigitChars 10 ds n < bound) :
    accumulate n ds = (Nat.ofDigitChars 10 ds n, 0) := by
  induction ds generalizing n with
  | nil => rfl
  | cons d ds ih =>
    rw [Nat.ofDigitChars_cons] at h ⊢
    rw [accumulate, longer_eq, if_pos (Nat.lt_of_le_of_lt (le_ofDigitChars ds _) h), ih h]

/-- Of digits that do not fit, some are dropped. -/
theorem dropped_of_le (ds : List Char) {n : Nat} (hn : n < bound)
    (h : bound ≤ Nat.ofDigitChars 10 ds n) : (accumulate n ds).2 ≠ 0 := by
  induction ds generalizing n with
  | nil => exact absurd h (Nat.not_le.mpr hn)
  | cons d ds ih =>
    rw [Nat.ofDigitChars_cons] at h
    rw [accumulate, longer_eq]
    split
    · rename_i hlonger
      exact ih hlonger h
    · exact Nat.succ_ne_zero _

end Numeral

/-- The digits of a number begin with a zero only if there is no other digit. -/
theorem toDigits_eq_cons (n : Nat) :
    ∃ d ds, Nat.toDigits 10 n = d :: ds ∧ d.isDigit = true ∧ (d = '0' → ds = [] ∧ n = 0) := by
  induction n using Nat.strongRecOn with
  | _ n ih =>
    rcases Nat.lt_or_ge n 10 with h | h
    · refine ⟨n.digitChar, [], Nat.toDigits_of_lt_base h, ?_, ?_⟩
      · exact Nat.isDigit_of_mem_toDigits (b := 10) (n := n) (by decide) (by decide)
          (by rw [Nat.toDigits_of_lt_base h]; exact List.mem_singleton_self _)
      · intro hzero
        have all : ∀ m < 10, Nat.digitChar m = '0' → m = 0 := by decide
        exact ⟨rfl, all n h hzero⟩
    · -- The first digit is that of a number that is smaller, and not zero.
      obtain ⟨d, ds, hds, hd, hzero⟩ := ih (n / 10) (by omega)
      refine ⟨d, ds ++ [(n % 10).digitChar], ?_, hd, ?_⟩
      · rw [Nat.toDigits_of_base_le (by decide) h, hds, List.cons_append]
      · intro h0
        have := (hzero h0).2
        omega

/-- Digits are read up to the first other character. -/
theorem Reads.digits {ds t : List Char} (hds : ∀ d ∈ ds, d.isDigit = true)
    (ht : ∀ x ∈ t.head?, x.isDigit = false) : Reads Json.digits (ds ++ t) (some ds) t := by
  have stops : t.takeWhile Char.isDigit = [] ∧ t.dropWhile Char.isDigit = t := by
    cases t with
    | nil => exact ⟨rfl, rfl⟩
    | cons x t => simp [ht x rfl]
  intro c hc
  refine ⟨?_, fun _ => ?_⟩
  · show some (c.rest.takeWhile Char.isDigit) = some ds
    rw [hc, List.takeWhile_append_of_pos hds, stops.1, List.append_nil]
  · show (Cursor.skipWhile Char.isDigit c.rest c.line c.column).rest = t
    rw [Cursor.skipWhile_rest, hc, List.dropWhile_append_of_pos hds, stops.2]

/-! ## Numbers that are not plain -/

/-- Whatever the text is, no plain number is given. -/
def Inexact (x : Reader Numeral) : Prop := ∀ c n, (x c).1 ≠ .ok (.unsigned n)

namespace Inexact

variable {α : Type} {minus : Bool}

protected theorem bind {x : Reader α} {f : α → Reader Numeral} (h : ∀ a, Inexact (f a)) :
    Inexact (x >>= f) := by
  intro c n
  rw [Attempt.bind_apply]
  cases x c with
  | mk result c' =>
    cases result with
    | ok a => exact h a c' n
    | error e => simp

theorem failHere (cause : Cause) : Inexact (Json.failHere cause) := by
  intro c n h
  cases h

theorem failAfter (bytes : Nat) (cause : Cause) : Inexact (Json.failAfter bytes cause) := by
  intro c n h
  cases h

theorem float (magnitude : Binary64) : Inexact (pure (.float minus magnitude)) := by
  intro c n h
  cases h

theorem binary (significand : Nat) (e : Int) : Inexact (Numeral.binary minus significand e) := by
  unfold Numeral.binary
  split
  · exact float _
  · exact failHere _

theorem exponent (significand : Nat) (start : Int) :
    Inexact (Numeral.exponent minus significand start) := by
  refine Inexact.bind fun _ => Inexact.bind fun sign => ?_
  extract_lets after
  have rest : ∀ down, Inexact (after down) := by
    intro down
    refine Inexact.bind fun next => ?_
    split
    · exact failHere _
    · split
      · refine Inexact.bind fun before => Inexact.bind fun ds => ?_
        dsimp only
        split
        · split
          · exact Inexact.bind fun _ => failAfter _ _
          · exact float _
        · exact binary _ _
      · exact failAfter _ _
  split
  · exact Inexact.bind fun _ => Inexact.bind rest
  · exact Inexact.bind fun _ => Inexact.bind rest
  · exact Inexact.bind rest

theorem afterDigits (significand : Nat) (e : Int) :
    Inexact (Numeral.afterDigits minus significand e) := by
  refine Inexact.bind fun next => ?_
  split
  · split
    · exact exponent _ _
    · exact binary _ _
  · exact binary _ _

theorem fraction (significand : Nat) (e : Int) :
    Inexact (Numeral.fraction minus significand e) := by
  refine Inexact.bind fun _ => Inexact.bind fun ds => ?_
  split
  · refine Inexact.bind fun next => ?_
    split
    · exact failAfter _ _
    · exact failHere _
  · exact afterDigits _ _

theorem whole (significand : Nat) : Inexact (pure (Numeral.whole true significand)) := by
  intro c n h
  have given : Numeral.whole true significand = .unsigned n := Except.ok.inj h
  unfold Numeral.whole at given
  split at given
  · contradiction
  · split at given <;> cases given

/-- After a sign, no number is plain. -/
theorem afterWhole (significand dropped : Nat) :
    Inexact (Numeral.afterWhole true significand dropped) := by
  refine Inexact.bind fun next => ?_
  split
  · split
    · exact fraction _ _
    · split
      · exact exponent _ _
      · split
        · exact whole _
        · exact binary _ _
  · split
    · exact whole _
    · exact binary _ _

theorem numeral : Inexact (Json.numeral true) := by
  refine Inexact.bind fun next => ?_
  split
  · exact failHere _
  · refine Inexact.bind fun _ => Inexact.bind fun following => ?_
    split
    · split
      · exact failAfter _ _
      · exact afterWhole _ _
    · exact afterWhole _ _
  · split
    · exact Inexact.bind fun ds => afterWhole _ _
    · exact failAfter _ _

end Inexact

/-! ## Numbers with their digits -/

/-- The digits of a number are read; what follows them decides what it is. -/
theorem exists_numeral_eq (minus : Bool) (n : Nat) {t : List Char}
    (ht : ∀ x ∈ t.head?, x.isDigit = false) {c : Cursor} (hc : c.rest = Nat.toDigits 10 n ++ t) :
    ∃ c' : Cursor, c'.rest = t ∧ numeral minus c =
      Numeral.afterWhole minus (Numeral.accumulate 0 (Nat.toDigits 10 n)).1
        (Numeral.accumulate 0 (Nat.toDigits 10 n)).2 c' := by
  obtain ⟨d, ds, hds, hd, hzero⟩ := toDigits_eq_cons n
  have hnext : peek c = (.ok (some d), c) :=
    peek_of_cons (hc.trans (by rw [hds, List.cons_append]))
  by_cases h0 : d = '0'
  · obtain ⟨rfl, rfl⟩ := hzero h0
    have left : c.advance.rest = t := by
      rw [Cursor.advance_rest, hc, hds]
      rfl
    refine ⟨c.advance, left, ?_⟩
    subst h0
    rw [numeral, Attempt.bind_of_ok hnext]
    -- After a zero no digit may follow, and none does.
    have passed : skip c = (.ok (), c.advance) := rfl
    show (skip >>= _ : Reader Numeral) c = _
    rw [Attempt.bind_of_ok passed, Attempt.bind_of_ok (peek_eq left)]
    cases t with
    | nil => rfl
    | cons x t =>
      show (if x.isDigit = true then _ else _ : Reader Numeral) _ = _
      rw [ht x rfl]
      rfl
  · have digits_only : ∀ x ∈ Nat.toDigits 10 n, x.isDigit = true := fun x hx =>
      Nat.isDigit_of_mem_toDigits (b := 10) (n := n) (by decide) (by decide) hx
    obtain ⟨given, left⟩ := Reads.digits digits_only ht c hc
    refine ⟨(digits c).2, left rfl, ?_⟩
    rw [numeral, Attempt.bind_of_ok hnext]
    simp only [hd, if_true]
    have hdigits : digits c = (.ok (Nat.toDigits 10 n), (digits c).2) :=
      Prod.ext (toOption_eq_some_iff.mp given) rfl
    rw [Attempt.bind_of_ok hdigits]

namespace Ended

variable {t : List Char}

/-- What stands after a number neither goes on with its digits nor begins another part of it. -/
theorem not_digit (h : Ended t) : ∀ x ∈ t.head?, x.isDigit = false := by
  intro x hx
  rw [Ended] at h
  simp only [isBlank_iff, or_assoc] at h
  rcases h x hx with rfl | rfl | rfl | rfl | rfl | rfl | rfl <;> rfl

theorem not_tail (h : Ended t) : ∀ x ∈ t.head?, x ≠ '.' ∧ Numeral.isExponentMark x = false := by
  intro x hx
  rw [Ended] at h
  simp only [isBlank_iff, or_assoc] at h
  rcases h x hx with rfl | rfl | rfl | rfl | rfl | rfl | rfl <;> decide

/-- Where a number ends, what was dropped of its digits decides whether it is exact. -/
theorem afterWhole (h : Ended t) {minus : Bool} {significand dropped : Nat} {c : Cursor}
    (hc : c.rest = t) : Numeral.afterWhole minus significand dropped c =
      if dropped = 0 then (.ok (Numeral.whole minus significand), c)
      else Numeral.binary minus significand dropped c := by
  rw [Numeral.afterWhole, Attempt.bind_of_ok (peek_eq hc)]
  cases t with
  | nil =>
    dsimp only [List.head?_nil]
    split <;> rfl
  | cons x t =>
    obtain ⟨hpoint, hmark⟩ := h.not_tail x rfl
    dsimp only [List.head?_cons]
    rw [if_neg hpoint, hmark, if_neg Bool.false_ne_true]
    split <;> rfl

end Ended

/-! ## Where a number of 64 bits is wanted -/

/-- Where no sign stands, a number is read as it is. -/
theorem signedNumeral_eq {c : Cursor} {x : Char} {s : List Char} (hc : c.rest = x :: s)
    (hx : x ≠ '-') : signedNumeral c = numeral false c := by
  rw [signedNumeral, Attempt.bind_of_ok (peek_of_cons hc)]
  refine congrFun ?_ c
  split
  · rename_i hsign
    exact absurd (Option.some.inj hsign) hx
  · rfl

theorem ne_sign_of_isDigit {x : Char} (h : x.isDigit = true) : x ≠ '-' := by
  rintro rfl
  cases h

theorem isBlank_of_isDigit {x : Char} (h : x.isDigit = true) : isBlank x = false := by
  rw [Bool.eq_false_iff, ne_eq, isBlank_iff]
  rintro (rfl | rfl | rfl | rfl) <;> cases h

/-- A fraction or an exponent begins with its mark. -/
theorem IsTail.exists_eq_cons {tail : List Char} (h : IsTail tail) :
    ∃ x u, tail = x :: u ∧ (x = '.' ∨ Numeral.isExponentMark x = true) := by
  cases h with
  | fraction _ => exact ⟨_, _, rfl, .inl rfl⟩
  | exponent he =>
    cases he with
    | marked hmark _ _ => exact ⟨_, _, rfl, .inr hmark⟩
  | both _ _ => exact ⟨_, _, rfl, .inl rfl⟩

namespace Reads

variable {s t u : List Char} {x : Char}

/-- A number begins with a sign or a digit. -/
theorem unsigned_of {o : Option Nat} (h : Blanks s (x :: u)) (hx : x = '-' ∨ x.isDigit = true)
    (hread : Reads (do
      match ← signedNumeral with
      | .unsigned n => pure n
      | .negative n => Json.failUnplaced (.invalidValue (.negative n) "u64")
      | n => Json.failUnplaced (.invalidType n.found "u64")) (x :: u) o t) :
    Reads Json.unsigned s o t := by
  have hblank : isBlank x = false := by
    rcases hx with rfl | hx
    · rfl
    · exact isBlank_of_isDigit hx
  have begins : (decide (x = '-') || x.isDigit) = true := by
    rw [Bool.or_eq_true, decide_eq_true_eq]
    exact hx
  apply beginning h hblank
  rw [if_pos begins]
  exact placed hread

/-- A number that is not plain is refused. -/
theorem unsigned_of_inexact (h : Blanks s (x :: u)) (hx : x = '-' ∨ x.isDigit = true)
    (hread : ∀ c : Cursor, c.rest = x :: u → ∀ n, (signedNumeral c).1 ≠ .ok (.unsigned n)) :
    Reads Json.unsigned s none t := by
  apply unsigned_of h hx
  intro c hc
  have notPlain := hread c hc
  rw [Attempt.bind_apply]
  cases given : signedNumeral c with
  | mk result c' =>
    rw [given] at notPlain
    cases result with
    | error e => exact ⟨rfl, fun h => by cases h⟩
    | ok m =>
      cases m with
      | unsigned n => exact absurd rfl (notPlain n)
      | negative n => exact (Refuses.failUnplaced _).reads c'.rest _ c' rfl
      | float minus magnitude => exact (Refuses.failUnplaced _).reads c'.rest _ c' rfl

/-- A plain number is read where a number is wanted, as long as it fits 64 bits. -/
theorem unsigned_number {n : Nat} (h : Blanks s (Nat.toDigits 10 n ++ t)) (ht : Ended t) :
    Reads Json.unsigned s (if n < Numeral.bound then some n else none) t := by
  obtain ⟨d, ds, hds, hd, -⟩ := toDigits_eq_cons n
  rw [hds, List.cons_append] at h
  have read : ∀ c : Cursor, c.rest = d :: (ds ++ t) → ∃ c' : Cursor, c'.rest = t ∧
      signedNumeral c = Numeral.afterWhole false (Numeral.accumulate 0 (Nat.toDigits 10 n)).1
        (Numeral.accumulate 0 (Nat.toDigits 10 n)).2 c' := by
    intro c hc
    rw [signedNumeral_eq hc (ne_sign_of_isDigit hd)]
    exact exists_numeral_eq false n ht.not_digit (hc.trans (by rw [hds, List.cons_append]))
  have value := Nat.ofDigitChars_ten_toDigits (n := n)
  split
  · -- All digits fit, so the number is exact.
    rename_i hn
    have plain : Reads signedNumeral (d :: (ds ++ t)) (some (.unsigned n)) t := by
      intro c hc
      obtain ⟨c', hc', given⟩ := read c hc
      rw [Numeral.accumulate_of_lt (by rwa [value]), value, ht.afterWhole hc', if_pos rfl] at given
      rw [given]
      exact ⟨rfl, fun _ => hc'⟩
    exact unsigned_of h (.inr hd) (Reads.bind plain (Reads.pure n t))
  · rename_i hn
    apply unsigned_of_inexact h (.inr hd)
    intro c hc
    obtain ⟨c', hc', given⟩ := read c hc
    have dropped := Numeral.dropped_of_le (Nat.toDigits 10 n) (n := 0) (by decide)
      (by rw [value]; exact Nat.not_lt.mp hn)
    rw [given, ht.afterWhole hc', if_neg dropped]
    exact Inexact.binary _ _ c'

/-- Any other number is refused where a number of 64 bits is wanted. -/
theorem unsigned_numeral {written : List Char} (hw : IsNumeral written)
    (h : Blanks s (written ++ t)) : Reads Json.unsigned s none t := by
  cases hw with
  | positive n htail =>
    obtain ⟨d, ds, hds, hd, -⟩ := toDigits_eq_cons n
    obtain ⟨x, u, rfl, hx⟩ := htail.exists_eq_cons
    rw [List.append_assoc, hds, List.cons_append] at h
    apply unsigned_of_inexact h (.inr hd)
    intro c hc
    have notDigit : ∀ y ∈ (x :: u ++ t).head?, y.isDigit = false := by
      rintro y ⟨⟩
      rcases hx with rfl | hx
      · rfl
      · rw [Numeral.isExponentMark, Bool.or_eq_true, decide_eq_true_eq, decide_eq_true_eq] at hx
        rcases hx with rfl | rfl <;> rfl
    obtain ⟨c', hc', given⟩ := exists_numeral_eq false n notDigit
      (hc.trans (by rw [hds]; rfl))
    rw [signedNumeral_eq hc (ne_sign_of_isDigit hd), given, Numeral.afterWhole,
      Attempt.bind_of_ok (peek_of_cons hc')]
    dsimp only
    -- The mark tells that the number goes on.
    rcases hx with rfl | hx
    · exact Inexact.fraction _ _ c'
    · by_cases hp : x = '.'
      · rw [if_pos hp]
        exact Inexact.fraction _ _ c'
      · rw [if_neg hp, if_pos hx]
        exact Inexact.exponent _ _ c'
  | negative n _ =>
    rw [List.cons_append, List.cons_append] at h
    apply unsigned_of_inexact h (.inl rfl)
    intro c hc
    rw [signedNumeral, Attempt.bind_of_ok (peek_of_cons hc)]
    exact Inexact.bind (fun _ => Inexact.numeral) c

end Reads

end InstallMedia.Json
