import InstallMedia.Json.Reader
import InstallMedia.Proofs.Attempt
import InstallMedia.Proofs.Json.Grammar
import InstallMedia.Proofs.Text.Utf8

/-!
# What JSON readers do to a text

A reader is described by what it gives from a text and by the text it leaves.  The place reached
does not matter for that, nor does the fault when it gives nothing.

## Main definitions

* `Json.Reads`: what a reader gives from a text, and what it leaves
* `Json.Refuses`: a reader that gives nothing, whatever the text is

## Main results

* `Json.Reads.bind`, `Json.Reads.refused`: one reader after another
* `Json.Reads.peekValue`: the next character after blanks
* `Json.Reads.text`: a text in any spelling
-/

namespace InstallMedia.Json

variable {α β : Type}

/-- From the text `s` a reader gives the outcome; if it gives a value, it leaves the text `t`. -/
def Reads (x : Reader α) (s : List Char) (outcome : Option α) (t : List Char) : Prop :=
  ∀ c : Cursor, c.rest = s →
    (x c).1.toOption = outcome ∧ (outcome.isSome = true → (x c).2.rest = t)

namespace Reads

variable {x : Reader α} {f : α → Reader β} {s t u : List Char}

protected theorem pure (a : α) (s : List Char) : Reads (Pure.pure a) s (some a) s := by
  intro c hc
  exact ⟨rfl, fun _ => hc⟩

/-- One reader after another: what the first one leaves is what the second one finds. -/
protected theorem bind {a : α} {o : Option β} (hx : Reads x s (some a) t)
    (hf : Reads (f a) t o u) : Reads (x >>= f) s o u := by
  intro c hc
  obtain ⟨given, left⟩ := hx c hc
  rw [Attempt.bind_apply]
  cases h : x c with
  | mk result c' =>
    rw [h] at given left
    cases result with
    | error e => cases given
    | ok a' =>
      obtain rfl : a' = a := Option.some.inj given
      exact hf c' (left rfl)

/-- After a reader that gives nothing, nothing is read. -/
theorem refused (hx : Reads x s none t) : Reads (x >>= f) s none u := by
  intro c hc
  obtain ⟨given, -⟩ := hx c hc
  rw [Attempt.bind_apply]
  cases h : x c with
  | mk result c' =>
    rw [h] at given
    cases result with
    | ok a => cases given
    | error e => exact ⟨rfl, fun h => by cases h⟩

/-- Only what a reader gives is changed. -/
protected theorem map {o : Option α} (g : α → β) (hx : Reads x s o t) :
    Reads (g <$> x) s (o.map g) t := by
  cases o with
  | none => exact refused hx
  | some a => exact Reads.bind hx (Reads.pure (g a) t)

/-- A reader may depend on the text that is left. -/
theorem of_rest {x : List Char → Reader α} {o : Option α} (hx : Reads (x s) s o t) :
    Reads (fun c => x c.rest c) s o t := by
  intro c hc
  dsimp only
  rw [hc]
  exact hx c hc

/-- The place of a fault does not matter. -/
theorem placed {o : Option α} (hx : Reads x s o t) : Reads (Json.placed x) s o t := by
  intro c hc
  have read := hx c hc
  unfold Json.placed
  split
  · rename_i h
    rw [h] at read
    exact read
  · exact read

end Reads

/-! ## Refusing -/

/-- Whatever the text is, nothing is given. -/
def Refuses (x : Reader α) : Prop := ∀ c, (x c).1.toOption = none

namespace Refuses

theorem reads {x : Reader α} (h : Refuses x) (s t : List Char) : Reads x s none t :=
  fun c _ => ⟨h c, fun given => by cases given⟩

protected theorem bind {x : Reader β} {f : β → Reader α} (h : ∀ b, Refuses (f b)) :
    Refuses (x >>= f) := by
  intro c
  rw [Attempt.bind_apply]
  cases x c with
  | mk result c' =>
    cases result with
    | ok b => exact h b c'
    | error e => rfl

theorem placed {x : Reader α} (h : Refuses x) : Refuses (Json.placed x) :=
  fun c => (Reads.placed (h.reads c.rest c.rest) c rfl).1

theorem failUnplaced (cause : Cause) : Refuses (Json.failUnplaced cause : Reader α) :=
  fun _ => rfl

theorem failNext (cause : Cause) : Refuses (Json.failNext cause : Reader α) := fun _ => rfl

end Refuses

/-! ## Characters -/

namespace Reads

theorem peek (s : List Char) : Reads Json.peek s (some s.head?) s := by
  intro c hc
  subst hc
  exact ⟨rfl, fun _ => rfl⟩

end Reads

theorem peek_eq {c : Cursor} {s : List Char} (h : c.rest = s) : peek c = (.ok s.head?, c) := by
  subst h
  rfl

theorem peek_of_cons {c : Cursor} {x : Char} {s : List Char} (h : c.rest = x :: s) :
    peek c = (.ok (some x), c) :=
  peek_eq h

@[simp] theorem Cursor.advance_rest (c : Cursor) : c.advance.rest = c.rest.tail := by
  unfold Cursor.advance
  split <;> rename_i h <;> simp [h]

theorem Cursor.skipWhile_rest (p : Char → Bool) (s : List Char) (line column : Nat) :
    (Cursor.skipWhile p s line column).rest = s.dropWhile p := by
  induction s generalizing line column with
  | nil => rfl
  | cons x s ih =>
    rw [Cursor.skipWhile, List.dropWhile_cons]
    split
    · split
      · exact ih _ _
      · exact ih _ _
    · rfl

/-- What is left after blanks, when no blank follows. -/
theorem Blanks.dropWhile {s t : List Char} (h : Blanks s t)
    (ht : ∀ x ∈ t.head?, isBlank x = false) : s.dropWhile isBlank = t := by
  induction h with
  | none s =>
    cases s with
    | nil => rfl
    | cons x s => rw [List.dropWhile_cons, ht x rfl, if_neg Bool.false_ne_true]
  | more hx _ ih => rw [List.dropWhile_cons, if_pos hx, ih ht]

namespace Reads

variable {s t u : List Char}

theorem skip (x : Char) (s : List Char) : Reads Json.skip (x :: s) (some ()) s := by
  intro c hc
  refine ⟨rfl, fun _ => ?_⟩
  show c.advance.rest = s
  rw [Cursor.advance_rest, hc, List.tail_cons]

/-- The next character after blanks. -/
theorem peekValue (h : Blanks s t) (ht : ∀ x ∈ t.head?, isBlank x = false) :
    Reads Json.peekValue s (some t.head?) t := by
  intro c hc
  have left : (Cursor.skipWhile isBlank c.rest c.line c.column).rest = t := by
    rw [Cursor.skipWhile_rest, hc, h.dropWhile ht]
  refine ⟨?_, fun _ => left⟩
  show some (Cursor.skipWhile isBlank c.rest c.line c.column).rest.head? = some t.head?
  rw [left]

theorem peekValue_cons {x : Char} (h : Blanks s (x :: t)) (hx : isBlank x = false) :
    Reads Json.peekValue s (some (some x)) (x :: t) := by
  refine peekValue h fun y hy => ?_
  rwa [← Option.some.inj hy]

/-- A value begins with the next character after blanks. -/
theorem beginning {α : Type} {read : Char → Reader α} {x : Char} {o : Option α}
    (h : Blanks s (x :: t)) (hx : isBlank x = false) (hread : Reads (read x) (x :: t) o u) :
    Reads (Json.beginning read) s o u :=
  Reads.bind (peekValue_cons h hx) hread

theorem word (w t : List Char) : Reads (Json.word w) (w ++ t) (some ()) t := by
  induction w with
  | nil => exact Reads.pure () t
  | cons x w ih =>
    apply Reads.bind (peek _)
    show Reads (if x = x then do Json.skip; Json.word w else _) _ _ _
    rw [if_pos rfl]
    exact Reads.bind (skip x (w ++ t)) ih

/-! ## Texts -/

theorem fourDigits {a b c d : Char} {n : Nat} (h : fourDigits? [a, b, c, d] = some n)
    (t : List Char) : Reads Json.fourDigits (a :: b :: c :: d :: t) (some n) t := by
  intro p hp
  have four : p.rest.take 4 = [a, b, c, d] := by rw [hp]; rfl
  have enough : ¬ (Utf8.encodeChars (p.rest.take 4)).length < 4 := by
    rw [four]
    exact Nat.not_lt.mpr (Utf8.length_le_encodeChars [a, b, c, d])
  have given : Json.fourDigits p = (.ok n, p.advance.advance.advance.advance) := by
    rw [Json.fourDigits, if_neg enough, four, h]
  rw [given]
  refine ⟨rfl, fun _ => ?_⟩
  simp only [Cursor.advance_rest, hp, List.tail_cons]

theorem betweenSurrogates (x : Char) (s : List Char) :
    Reads (Json.betweenSurrogates x) (x :: s) (some ()) s := by
  apply Reads.bind (peek _)
  show Reads (if x = x then Json.skip else _) _ _ _
  rw [if_pos rfl]
  exact skip x s

theorem shortEscape {e c : Char} (h : shortEscape? e = some c) (t : List Char) :
    Reads Json.escape (e :: t) (some c) t := by
  apply Reads.bind (peek _)
  -- The letter of numeric escapes is not that of a short one.
  have he : e ≠ 'u' := by
    rintro rfl
    cases h
  split
  · contradiction
  · rename_i hu
    exact absurd (Option.some.inj hu) he
  · rename_i hx
    obtain rfl := Option.some.inj hx
    rw [h]
    exact Reads.bind (skip e t) (Reads.pure c t)

theorem numericEscape {a b c d : Char} {n : Nat} (h : fourDigits? [a, b, c, d] = some n)
    (hl : isLeading n = false) (ht : isTrailing n = false) (t : List Char) :
    Reads Json.numericEscape (a :: b :: c :: d :: t) (some (Char.ofNat n)) t := by
  apply Reads.bind (fourDigits h t)
  rw [ht, hl]
  exact Reads.pure (Char.ofNat n) t

theorem surrogates {a b c d e f g h : Char} {n m : Nat} (hn : fourDigits? [a, b, c, d] = some n)
    (hl : isLeading n = true) (hm : fourDigits? [e, f, g, h] = some m) (ht : isTrailing m = true)
    (t : List Char) :
    Reads Json.numericEscape (a :: b :: c :: d :: '\\' :: 'u' :: e :: f :: g :: h :: t)
      (some (Char.ofNat ((n - 0xD800) * 0x400 + (m - 0xDC00) + 0x10000))) t := by
  have first : isTrailing n = false := by
    simp only [isLeading, isTrailing, Bool.and_eq_true, decide_eq_true_eq, Bool.and_eq_false_iff,
      decide_eq_false_iff_not] at hl ⊢
    omega
  apply Reads.bind (fourDigits hn _)
  rw [first, hl]
  apply Reads.bind (betweenSurrogates '\\' _)
  apply Reads.bind (betweenSurrogates 'u' _)
  apply Reads.bind (fourDigits hm t)
  rw [ht]
  exact Reads.pure _ t

/-- One character of a text, however it is written. -/
theorem textFrom_cons {c : Char} (h : SpellsChar c s t) {before : List Char} {fuel : Nat}
    {o : Option String} (more : Reads (textFrom (c :: before) fuel) t o u) :
    Reads (textFrom before (fuel + 1)) s o u := by
  apply Reads.bind (peek _)
  cases h with
  | plain t hq hb hc =>
    show Reads (if c = '"' then _ else if c = '\\' then _ else if isControl c = true then _
      else do Json.skip; textFrom (c :: before) fuel) _ _ _
    rw [if_neg hq, if_neg hb, hc]
    exact Reads.bind (skip c t) more
  | short t he => exact Reads.bind (skip '\\' _) (Reads.bind (shortEscape he t) more)
  | numeric t hn hl ht =>
    exact Reads.bind (skip '\\' _) (Reads.bind (Reads.bind (peek _)
      (Reads.bind (skip 'u' _) (numericEscape hn hl ht t))) more)
  | surrogates t hn hl hm ht =>
    exact Reads.bind (skip '\\' _) (Reads.bind (Reads.bind (peek _)
      (Reads.bind (skip 'u' _) (surrogates hn hl hm ht t))) more)

theorem textFrom {cs : List Char} (h : SpellsText cs s t) (before : List Char) {fuel : Nat}
    (enough : cs.length < fuel) :
    Reads (Json.textFrom before fuel) s (some (String.ofList (before.reverse ++ cs))) t := by
  induction h generalizing before fuel with
  | quote t =>
    obtain ⟨fuel, rfl⟩ := Nat.exists_eq_succ_of_ne_zero (Nat.ne_zero_of_lt enough)
    rw [List.append_nil]
    exact Reads.bind (peek _) (Reads.bind (skip '"' t) (Reads.pure _ t))
  | @char c cs s t u hc _ ih =>
    obtain ⟨fuel, rfl⟩ := Nat.exists_eq_succ_of_ne_zero (Nat.ne_zero_of_lt enough)
    have rest := ih (c :: before) (Nat.lt_of_succ_lt_succ enough)
    rw [List.reverse_cons, List.append_assoc, List.singleton_append] at rest
    exact textFrom_cons hc rest

end Reads

/-- A text is read as what it spells. -/
theorem Reads.text {value : String} {s t : List Char} (h : SpellsText value.toList s t) :
    Reads Json.text s (some value) t := by
  intro c hc
  have enough : value.toList.length < c.rest.length + 1 := by
    have := h.length_lt
    rw [hc]
    omega
  have read := Reads.textFrom h [] enough c hc
  rwa [List.reverse_nil, List.nil_append, String.ofList_toList] at read

end InstallMedia.Json
