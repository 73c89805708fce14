import InstallMedia.Proofs.Json.Numbers

/-!
# Reading values where a shape is wanted

Each reader of a shape makes the same of every spelling of a datum: its value if the datum has the
shape, and nothing otherwise.

## Main definitions

* `Json.Datum.text?`, `Json.Datum.bool?`, `Json.Datum.unsigned?`: what a datum is
* `Json.Datum.optional?`, `Json.Datum.list?`: data that may be null, and lists
* `Json.ReadsAs`: a reader makes of every datum what a function makes of it

## Main results

* `Json.readsAs_string`, `Json.readsAs_bool`, `Json.readsAs_unsigned`
* `Json.ReadsAs.optional`, `Json.ReadsAs.list`
-/

namespace InstallMedia.Json

variable {α : Type}

/-! ## What a datum is -/

namespace Datum

def text? : Datum → Option String
  | .text value => some value
  | _ => none

def bool? : Datum → Option Bool
  | .bool value => some value
  | _ => none

/-- A plain number of 64 bits. -/
def unsigned? : Datum → Option Nat
  | .number n => if n < Numeral.bound then some n else none
  | _ => none

/-- A datum that may be null. -/
def optional? (f : Datum → Option α) : Datum → Option (Option α)
  | .null => some none
  | d => (f d).map some

def list? (f : Datum → Option α) : Datum → Option (List α)
  | .list ds => ds.mapM f
  | _ => none

theorem text?_eq_some_iff {d : Datum} {s : String} : d.text? = some s ↔ d = .text s := by
  cases d <;> simp [text?]

theorem bool?_eq_some_iff {d : Datum} {b : Bool} : d.bool? = some b ↔ d = .bool b := by
  cases d <;> simp [bool?]

theorem unsigned?_eq_some_iff {d : Datum} {n : Nat} :
    d.unsigned? = some n ↔ d = .number n ∧ n < Numeral.bound := by
  cases d with
  | number m =>
    rw [unsigned?, Option.ite_none_right_eq_some, Option.some.injEq, number.injEq]
    constructor
    · rintro ⟨h, rfl⟩
      exact ⟨rfl, h⟩
    · rintro ⟨rfl, h⟩
      exact ⟨h, rfl⟩
  | _ => simp [unsigned?]

theorem texts?_eq_some_iff {d : Datum} {ss : List String} :
    d.list? text? = some ss ↔ d = .list (ss.map .text) := by
  have each : ∀ ds : List Datum, ds.mapM text? = some ss ↔ ds = ss.map .text := by
    intro ds
    induction ds generalizing ss with
    | nil => cases ss <;> simp
    | cons d ds ih =>
      cases ss with
      | nil => simp [List.mapM_cons, Option.bind_eq_some_iff]
      | cons s ss => simp [List.mapM_cons, Option.bind_eq_some_iff, text?_eq_some_iff, ih]
  cases d with
  | list ds => rw [list?, each, list.injEq]
  | _ => simp [list?]

/-- The characters that a spelling of a datum can begin with. -/
def Begins : Datum → Char → Prop
  | .null, x => x = 'n'
  | .bool _, x => x = 't' ∨ x = 'f'
  | .number _, x => x.isDigit = true
  | .numeral _, x => x = '-' ∨ x.isDigit = true
  | .text _, x => x = '"'
  | .list _, x => x = '['
  | .object _, x => x = '\x7b'

theorem Begins.not_blank {d : Datum} {x : Char} (h : d.Begins x) : isBlank x = false := by
  cases d with
  | null => cases h; rfl
  | bool => rcases h with rfl | rfl <;> rfl
  | number => exact isBlank_of_isDigit h
  | numeral =>
    rcases h with rfl | h
    · rfl
    · exact isBlank_of_isDigit h
  | text => cases h; rfl
  | list => cases h; rfl
  | object => cases h; rfl

theorem Begins.not_mark {d : Datum} {x : Char} (h : d.Begins x) : x ≠ ']' ∧ x ≠ '\x7d' := by
  constructor
  · rintro rfl
    cases d <;> simp [Begins] at h
  · rintro rfl
    cases d <;> simp [Begins] at h

/-- Only numbers begin with a sign or a digit. -/
theorem Begins.not_digit {d : Datum} {x : Char} (h : d.Begins x) (hn : ∀ n, d ≠ .number n)
    (hw : ∀ written, d ≠ .numeral written) : ¬ (x = '-' ∨ x.isDigit = true) := by
  cases d with
  | null => cases h; decide
  | bool => rcases h with rfl | rfl <;> decide
  | number n => exact absurd rfl (hn n)
  | numeral written => exact absurd rfl (hw written)
  | text => cases h; decide
  | list => cases h; decide
  | object => cases h; decide

end Datum

theorem IsNumeral.exists_eq_cons {written : List Char} (h : IsNumeral written) :
    ∃ x s, written = x :: s ∧ (x = '-' ∨ x.isDigit = true) := by
  cases h with
  | positive n _ =>
    obtain ⟨d, ds, hds, hd, -⟩ := toDigits_eq_cons n
    rw [hds]
    exact ⟨d, _, rfl, .inr hd⟩
  | negative n _ => exact ⟨_, _, rfl, .inl rfl⟩

theorem Spells.begins {d : Datum} {s t : List Char} (h : Spells d s t) :
    ∃ x u, s = x :: u ∧ d.Begins x := by
  cases h with
  | null => exact ⟨_, _, rfl, rfl⟩
  | true => exact ⟨_, _, rfl, .inl rfl⟩
  | false => exact ⟨_, _, rfl, .inr rfl⟩
  | number n =>
    obtain ⟨d, ds, hds, hd, -⟩ := toDigits_eq_cons n
    rw [hds]
    exact ⟨d, _, rfl, hd⟩
  | numeral _ hw =>
    obtain ⟨x, s, rfl, hx⟩ := hw.exists_eq_cons
    exact ⟨x, _, rfl, hx⟩
  | text => exact ⟨_, _, rfl, rfl⟩
  | list => exact ⟨_, _, rfl, rfl⟩
  | object => exact ⟨_, _, rfl, rfl⟩

/-! ## Refusing -/

/-- Where another shape is wanted, no value is taken. -/
theorem Refuses.refuse (expected : String) : Refuses (Json.refuse expected : Reader α) := by
  refine placed (Refuses.bind fun next => ?_)
  split
  · exact Refuses.bind fun _ => Refuses.bind fun _ => failUnplaced _
  · exact Refuses.bind fun _ => Refuses.bind fun _ => failUnplaced _
  · exact Refuses.bind fun _ => Refuses.bind fun _ => failUnplaced _
  · exact Refuses.bind fun _ => Refuses.bind fun _ => failUnplaced _
  · exact failUnplaced _
  · exact failUnplaced _
  · split
    · exact Refuses.bind fun _ => failUnplaced _
    · exact failNext _
  · exact failNext _

/-! ## Readers of plain values -/

/-- Of every spelling of a datum, with blanks before it, the reader makes the same. -/
def ReadsAs (read : Reader α) (f : Datum → Option α) : Prop :=
  ∀ ⦃d : Datum⦄ ⦃s t u : List Char⦄, Blanks s t → Spells d t u → Ended u → Reads read s (f d) u

/-- Only what a reader gives is changed. -/
theorem ReadsAs.bind_pure {β : Type} {read : Reader α} {f : Datum → Option α}
    (h : ReadsAs read f) (g : α → β) :
    ReadsAs (read >>= fun a => pure (g a)) fun d => (f d).map g :=
  fun _ _ _ _ hb hd hu => Reads.map g (h hb hd hu)

/-- What is refused for its first character. -/
theorem Reads.beginning_none {read : Char → Reader α} {d : Datum} {s t u : List Char}
    (hb : Blanks s t) (h : Spells d t u)
    (hread : ∀ x, d.Begins x → ∀ v, Reads (read x) (x :: v) none u) :
    Reads (Json.beginning read) s none u := by
  obtain ⟨x, v, rfl, hx⟩ := h.begins
  exact Reads.beginning hb hx.not_blank (hread x hx v)

theorem readsAs_string (expected : String) : ReadsAs (string expected) Datum.text? := by
  intro d s t u hb h hu
  cases d with
  | text value =>
    cases h with
    | text h => exact Reads.beginning hb rfl (Reads.bind (Reads.skip '"' _) (Reads.text h))
  | _ =>
    refine Reads.beginning_none hb h fun x hx v => ?_
    have hq : x ≠ '"' := by
      rintro rfl
      simp [Datum.Begins] at hx
    rw [if_neg hq]
    exact (Refuses.refuse expected).reads _ _

theorem readsAs_bool : ReadsAs bool Datum.bool? := by
  intro d s t u hb h hu
  cases d with
  | bool value =>
    cases h with
    | true =>
      exact Reads.beginning hb rfl (Reads.bind (Reads.skip 't' _)
        (Reads.bind (Reads.word ['r', 'u', 'e'] u) (Reads.pure true u)))
    | false =>
      exact Reads.beginning hb rfl (Reads.bind (Reads.skip 'f' _)
        (Reads.bind (Reads.word ['a', 'l', 's', 'e'] u) (Reads.pure false u)))
  | _ =>
    refine Reads.beginning_none hb h fun x hx v => ?_
    have ht : x ≠ 't' ∧ x ≠ 'f' := by
      constructor <;> (rintro rfl; simp [Datum.Begins] at hx)
    rw [if_neg ht.1, if_neg ht.2]
    exact (Refuses.refuse _).reads _ _

theorem readsAs_unsigned : ReadsAs unsigned Datum.unsigned? := by
  intro d s t u hb h hu
  cases d with
  | number n =>
    cases h with
    | number => exact Reads.unsigned_number hb hu
  | numeral written =>
    cases h with
    | numeral _ hw => exact Reads.unsigned_numeral hw hb
  | _ =>
    refine Reads.beginning_none hb h fun x hx v => ?_
    have hdigit := hx.not_digit (fun _ h => by cases h) (fun _ h => by cases h)
    rw [← decide_eq_true_eq (p := x = '-'), ← Bool.or_eq_true] at hdigit
    rw [if_neg hdigit]
    exact (Refuses.refuse _).reads _ _

/-- Null is told from every other datum by its first character. -/
theorem ReadsAs.optional {read : Reader α} {f : Datum → Option α} (h : ReadsAs read f) :
    ReadsAs (Json.optional read) (Datum.optional? f) := by
  intro d s t u hb hd hu
  cases d with
  | null =>
    cases hd with
    | null =>
      exact Reads.bind (Reads.peekValue_cons hb rfl) (Reads.bind (Reads.skip 'n' _)
        (Reads.bind (Reads.word ['u', 'l', 'l'] u) (Reads.pure none u)))
  | _ =>
    obtain ⟨x, v, rfl, hx⟩ := hd.begins
    have hn : x ≠ 'n' := by
      rintro rfl
      simp [Datum.Begins] at hx
    apply Reads.bind (Reads.peekValue_cons hb hx.not_blank)
    split
    · rename_i hx
      exact absurd (Option.some.inj hx) hn
    · exact Reads.map some (h (Blanks.none _) hd hu)

/-! ## What follows an item -/

/-- Blanks do not go on with a number either. -/
theorem Blanks.ended {s t : List Char} (h : Blanks s t) (ht : Ended t) : Ended s := by
  cases h with
  | none => exact ht
  | more hx _ =>
    rintro y ⟨⟩
    exact .inl hx

namespace Follows

variable {item : α → List Char → List Char → Prop} {mark : Char} {items : List α}
  {s t : List Char}

/-- After an item no number goes on. -/
theorem ended (h : Follows item mark items s t) (hm : mark = ']' ∨ mark = '\x7d') : Ended s := by
  cases h with
  | close hb =>
    refine hb.ended ?_
    rintro y ⟨⟩
    exact .inr (.inr hm)
  | comma hb _ _ _ =>
    refine hb.ended ?_
    rintro y ⟨⟩
    exact .inr (.inl rfl)

end Follows

/-! ## Lists -/

theorem Reads.closing {contents : Reader α} {close : Reader Unit} {s t u : List Char}
    {o : Option α} (h : Reads contents s o t) (hc : Reads close t (some ()) u) :
    Reads (Json.closing contents close) s o u := by
  apply Reads.placed
  intro c hs
  obtain ⟨given, left⟩ := h c hs
  dsimp only
  cases hx : contents c with
  | mk result c' =>
    rw [hx] at given left
    cases result with
    | error e =>
      subst given
      exact ⟨rfl, fun h => by cases h⟩
    | ok a =>
      subst given
      obtain ⟨closed, leftAfter⟩ := hc c' (left rfl)
      cases hy : close c' with
      | mk result' c'' =>
        rw [hy] at closed leftAfter
        cases result' with
        | error e => cases closed
        | ok _ =>
          dsimp only
          rw [hy]
          exact ⟨rfl, fun _ => leftAfter rfl⟩

theorem Reads.closeList (t : List Char) : Reads Json.closeList (']' :: t) (some ()) t := by
  apply Reads.bind (Reads.peekValue_cons (Blanks.none _) rfl)
  exact Reads.skip ']' t

/-- Where a list ends, no element follows. -/
theorem Reads.hasElement_close {first : Bool} {s t : List Char} (h : Blanks s (']' :: t)) :
    Reads (hasElement first) s (some false) (']' :: t) := by
  apply Reads.bind (Reads.peekValue_cons h rfl)
  exact Reads.pure false _

/-- The first element follows the opening mark at once. -/
theorem Reads.hasElement_first {s t u : List Char} {d : Datum} (hb : Blanks s t)
    (h : Spells d t u) : Reads (hasElement true) s (some true) t := by
  obtain ⟨x, v, rfl, hx⟩ := h.begins
  apply Reads.bind (Reads.peekValue_cons hb hx.not_blank)
  split
  · contradiction
  · rename_i hmark
    exact absurd (Option.some.inj hmark) hx.not_mark.1
  · exact Reads.pure true _

/-- Further elements follow a comma. -/
theorem Reads.hasElement_comma {s t u v : List Char} {d : Datum} (hc : Blanks s (',' :: t))
    (hb : Blanks t u) (h : Spells d u v) : Reads (hasElement false) s (some true) u := by
  obtain ⟨x, w, rfl, hx⟩ := h.begins
  apply Reads.bind (Reads.peekValue_cons hc rfl)
  apply Reads.bind (Reads.skip ',' t)
  apply Reads.bind (Reads.peekValue_cons hb hx.not_blank)
  split
  · rename_i hmark
    exact absurd (Option.some.inj hmark) hx.not_mark.1
  · exact Reads.pure true _
  · contradiction

section List

variable {read : Reader α} {f : Datum → Option α}

/-- One element and the elements after it. -/
theorem Reads.elements_cons (h : ReadsAs read f) {d : Datum} {ds : List Datum}
    {before : List α} {fuel : Nat} {s t u v : List Char}
    (more : Reads (hasElement before.isEmpty) s (some true) t) (hd : Spells d t u) (hu : Ended u)
    (rest : ∀ a, Reads (Json.elements read (a :: before) fuel) u
      ((ds.mapM f).map ((a :: before).reverse ++ ·)) v) :
    Reads (Json.elements read before (fuel + 1)) s (((d :: ds).mapM f).map (before.reverse ++ ·))
      v := by
  apply Reads.bind more
  rw [if_pos rfl, List.mapM_cons]
  have first := h (Blanks.none t) hd hu
  cases hf : f d with
  | none =>
    rw [hf] at first
    exact Reads.refused first
  | some a =>
    rw [hf] at first
    have after := rest a
    rw [List.reverse_cons] at after
    refine Reads.bind first ?_
    cases hds : ds.mapM f with
    | none =>
      rw [hds] at after
      exact after
    | some as =>
      rw [hds, Option.map_some, List.append_assoc, List.singleton_append] at after
      exact after

/-- The elements after others, up to the mark that closes the list. -/
theorem Reads.elements_follow (h : ReadsAs read f) {ds : List Datum} {s t : List Char}
    (hds : Follows Spells ']' ds s t) {before : List α} (hbefore : before.isEmpty = false)
    {fuel : Nat} (enough : ds.length < fuel) :
    Reads (Json.elements read before fuel) s ((ds.mapM f).map (before.reverse ++ ·))
      (']' :: t) := by
  induction hds generalizing before fuel with
  | close hb =>
    obtain ⟨fuel, rfl⟩ := Nat.exists_eq_succ_of_ne_zero (Nat.ne_zero_of_lt enough)
    apply Reads.bind (Reads.hasElement_close hb)
    rw [if_neg Bool.false_ne_true]
    show Reads _ _ (some (before.reverse ++ [])) _
    rw [List.append_nil]
    exact Reads.pure before.reverse _
  | comma hc hb hd more ih =>
    obtain ⟨fuel, rfl⟩ := Nat.exists_eq_succ_of_ne_zero (Nat.ne_zero_of_lt enough)
    apply Reads.elements_cons h _ hd (more.ended (.inl rfl))
    · intro a
      exact ih rfl (Nat.lt_of_succ_lt_succ enough)
    · rw [hbefore]
      exact Reads.hasElement_comma hc hb hd

/-- The elements of a list, after its opening mark. -/
theorem Reads.elements (h : ReadsAs read f) {ds : List Datum} {s t : List Char}
    (hds : Encloses Spells ']' ds s t) {fuel : Nat} (enough : ds.length < fuel) :
    Reads (Json.elements read [] fuel) s (ds.mapM f) (']' :: t) := by
  obtain ⟨fuel, rfl⟩ := Nat.exists_eq_succ_of_ne_zero (Nat.ne_zero_of_lt enough)
  cases hds with
  | empty hb =>
    apply Reads.bind (Reads.hasElement_close hb)
    exact Reads.pure [] _
  | @items d ds _ _ _ _ hb hd more =>
    have read : Reads (Json.elements read [] (fuel + 1)) s
        (((d :: ds).mapM f).map ([].reverse ++ ·)) (']' :: t) :=
      Reads.elements_cons h (Reads.hasElement_first hb hd) hd (more.ended (.inl rfl))
        fun a => Reads.elements_follow h more rfl (Nat.lt_of_succ_lt_succ enough)
    have same : ((d :: ds).mapM f).map ([].reverse ++ ·) = (d :: ds).mapM f := by
      cases (d :: ds).mapM f <;> rfl
    rwa [same] at read

theorem ReadsAs.list (h : ReadsAs read f) : ReadsAs (Json.list read) (Datum.list? f) := by
  intro d s t u hb hd hu
  cases d with
  | list ds =>
    cases hd with
    | @list _ s _ hds =>
      apply Reads.beginning hb rfl
      rw [if_pos rfl]
      apply Reads.bind (Reads.skip '[' _)
      refine Reads.closing (t := ']' :: u) ?_ (Reads.closeList u)
      have enough : ds.length < s.length + 1 := by
        have := hds.length_lt fun d _ => Spells.length_lt d
        omega
      exact Reads.of_rest (x := fun s => Json.elements read [] (s.length + 1))
        (Reads.elements h hds enough)
  | _ =>
    refine Reads.beginning_none hb hd fun x hx v => ?_
    have hmark : x ≠ '[' := by
      rintro rfl
      simp [Datum.Begins] at hx
    rw [if_neg hmark]
    exact (Refuses.refuse _).reads _ _

end List

end InstallMedia.Json
