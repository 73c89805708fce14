import InstallMedia.Json.Numeral
import InstallMedia.Json.Text

/-!
# JSON texts and the data they spell

Each part of the grammar relates a text to what is left of it after a spelling: a datum has many
spellings, with blanks between the parts and with escapes in the texts, and its members may stand in
any order.

## Main definitions

* `Json.Datum`: what a JSON text can hold
* `Json.Spells`: a text begins with a spelling of a datum, and another text is left after it
* `Json.Holds`: a whole text holds a datum
* `Json.Ended`: a text that cannot go on with a number
-/

namespace InstallMedia.Json

/-- What a JSON text can hold. -/
inductive Datum where
  | null
  | bool (value : Bool)
  /-- A number of digits only. -/
  | number (value : Nat)
  /-- Any other number, as it is written. -/
  | numeral (written : List Char)
  | text (value : String)
  | list (elements : List Datum)
  | object (members : List (String × Datum))

/-! ## Blanks -/

/-- Blanks lead from one text to another. -/
inductive Blanks : List Char → List Char → Prop
  | none (s : List Char) : Blanks s s
  | more {x : Char} {s t : List Char} : isBlank x = true → Blanks s t → Blanks (x :: s) t

/-! ## Texts -/

/-- The spellings of a character between quotes. -/
inductive SpellsChar : Char → List Char → List Char → Prop
  | plain {c : Char} (t : List Char) : c ≠ '"' → c ≠ '\\' → isControl c = false →
    SpellsChar c (c :: t) t
  | short {e c : Char} (t : List Char) : shortEscape? e = some c → SpellsChar c ('\\' :: e :: t) t
  | numeric {a b c d : Char} {n : Nat} (t : List Char) : fourDigits? [a, b, c, d] = some n →
    isLeading n = false → isTrailing n = false →
    SpellsChar (Char.ofNat n) ('\\' :: 'u' :: a :: b :: c :: d :: t) t
  | surrogates {a b c d e f g h : Char} {n m : Nat} (t : List Char) :
    fourDigits? [a, b, c, d] = some n → isLeading n = true →
    fourDigits? [e, f, g, h] = some m → isTrailing m = true →
    SpellsChar (Char.ofNat ((n - 0xD800) * 0x400 + (m - 0xDC00) + 0x10000))
      ('\\' :: 'u' :: a :: b :: c :: d :: '\\' :: 'u' :: e :: f :: g :: h :: t) t

/-- The spellings of characters up to the closing quote. -/
inductive SpellsText : List Char → List Char → List Char → Prop
  | quote (t : List Char) : SpellsText [] ('"' :: t) t
  | char {c : Char} {cs s t u : List Char} : SpellsChar c s t → SpellsText cs t u →
    SpellsText (c :: cs) s u

/-! ## Numbers -/

/-- Digits, at least one. -/
def IsDigits (cs : List Char) : Prop := cs ≠ [] ∧ ∀ c ∈ cs, c.isDigit = true

/-- An exponent, with its mark. -/
inductive IsExponent : List Char → Prop
  | marked {mark : Char} {sign ds : List Char} : Numeral.isExponentMark mark = true →
    sign = [] ∨ sign = ['+'] ∨ sign = ['-'] → IsDigits ds → IsExponent (mark :: sign ++ ds)

/-- What may stand after the whole part of a number. -/
inductive IsTail : List Char → Prop
  | fraction {ds : List Char} : IsDigits ds → IsTail ('.' :: ds)
  | exponent {e : List Char} : IsExponent e → IsTail e
  | both {ds e : List Char} : IsDigits ds → IsExponent e → IsTail ('.' :: ds ++ e)

/-- A number with a sign, a fraction or an exponent. -/
inductive IsNumeral : List Char → Prop
  | positive (n : Nat) {tail : List Char} : IsTail tail → IsNumeral (Nat.toDigits 10 n ++ tail)
  | negative (n : Nat) {tail : List Char} : tail = [] ∨ IsTail tail →
    IsNumeral ('-' :: Nat.toDigits 10 n ++ tail)

/-! ## Values -/

/-- What follows an item of a list or an object: its end, or a comma and another item. -/
inductive Follows {α : Type} (item : α → List Char → List Char → Prop) (mark : Char) :
    List α → List Char → List Char → Prop
  | close {s t : List Char} : Blanks s (mark :: t) → Follows item mark [] s t
  | comma {a : α} {more : List α} {s t u v w : List Char} : Blanks s (',' :: t) → Blanks t u →
    item a u v → Follows item mark more v w → Follows item mark (a :: more) s w

/-- The items of a list or an object, after its opening mark. -/
inductive Encloses {α : Type} (item : α → List Char → List Char → Prop) (mark : Char) :
    List α → List Char → List Char → Prop
  | empty {s t : List Char} : Blanks s (mark :: t) → Encloses item mark [] s t
  | items {a : α} {more : List α} {s t u v : List Char} : Blanks s t → item a t u →
    Follows item mark more u v → Encloses item mark (a :: more) s v

/-- A member of an object: its name, a colon and its value. -/
inductive SpellsMember (value : Datum → List Char → List Char → Prop) :
    String × Datum → List Char → List Char → Prop
  | named {name : String} {d : Datum} {s t u v w : List Char} : SpellsText name.toList s t →
    Blanks t (':' :: u) → Blanks u v → value d v w → SpellsMember value (name, d) ('"' :: s) w

/-- The spellings of a datum, without blanks before it. -/
inductive Spells : Datum → List Char → List Char → Prop
  | null (t : List Char) : Spells .null ('n' :: 'u' :: 'l' :: 'l' :: t) t
  | true (t : List Char) : Spells (.bool true) ('t' :: 'r' :: 'u' :: 'e' :: t) t
  | false (t : List Char) : Spells (.bool false) ('f' :: 'a' :: 'l' :: 's' :: 'e' :: t) t
  | number (n : Nat) (t : List Char) : Spells (.number n) (Nat.toDigits 10 n ++ t) t
  | numeral {written : List Char} (t : List Char) : IsNumeral written →
    Spells (.numeral written) (written ++ t) t
  | text {value : String} {s t : List Char} : SpellsText value.toList s t →
    Spells (.text value) ('"' :: s) t
  | list {ds : List Datum} {s t : List Char} : Encloses Spells ']' ds s t →
    Spells (.list ds) ('[' :: s) t
  | object {ms : List (String × Datum)} {s t : List Char} :
    Encloses (SpellsMember Spells) '\x7d' ms s t → Spells (.object ms) ('\x7b' :: s) t

/-- A whole text holds a datum. -/
def Holds (d : Datum) (s : String) : Prop :=
  ∃ t u, Blanks s.toList t ∧ Spells d t u ∧ Blanks u []

/-- A text that cannot go on with a number: it is empty, or begins with a blank or with a mark. -/
def Ended (t : List Char) : Prop :=
  ∀ x ∈ t.head?, isBlank x = true ∨ x = ',' ∨ x = ']' ∨ x = '\x7d'

theorem isBlank_iff {x : Char} :
    isBlank x = true ↔ x = ' ' ∨ x = '\n' ∨ x = '\t' ∨ x = '\r' := by
  simp only [isBlank, Bool.or_eq_true, decide_eq_true_eq, or_assoc]

/-! ## What a spelling takes up -/

theorem Blanks.length_le {s t : List Char} (h : Blanks s t) : t.length ≤ s.length := by
  induction h with
  | none s => exact Nat.le_refl _
  | more _ _ ih => exact Nat.le_succ_of_le ih

theorem SpellsChar.length_lt {c : Char} {s t : List Char} (h : SpellsChar c s t) :
    t.length < s.length := by
  cases h <;> simp only [List.length_cons] <;> omega

/-- A text takes up a character for each of its own, and its closing quote. -/
theorem SpellsText.length_lt {cs s t : List Char} (h : SpellsText cs s t) :
    cs.length + t.length < s.length := by
  induction h with
  | quote t => simp
  | char hc _ ih =>
    have := hc.length_lt
    rw [List.length_cons]
    omega

section Items

variable {α : Type} {item : α → List Char → List Char → Prop} {mark : Char} {items : List α}
  {s t : List Char}

theorem Follows.length_lt (h : Follows item mark items s t)
    (hitem : ∀ a ∈ items, ∀ s t, item a s t → t.length < s.length) :
    items.length + t.length < s.length := by
  induction h with
  | close hb =>
    have := hb.length_le
    rw [List.length_cons] at this
    rw [List.length_nil]
    omega
  | comma hc hb ha _ ih =>
    have rest := ih fun a h => hitem a (List.mem_cons_of_mem _ h)
    have first := hitem _ List.mem_cons_self _ _ ha
    have := hb.length_le
    have := hc.length_le
    rw [List.length_cons] at this ⊢
    omega

/-- There are no more items than characters. -/
theorem Encloses.length_lt (h : Encloses item mark items s t)
    (hitem : ∀ a ∈ items, ∀ s t, item a s t → t.length < s.length) :
    items.length + t.length < s.length := by
  cases h with
  | empty hb => exact (Follows.close hb).length_lt hitem
  | items hb ha more =>
    have rest := more.length_lt fun a h => hitem a (List.mem_cons_of_mem _ h)
    have first := hitem _ List.mem_cons_self _ _ ha
    have := hb.length_le
    rw [List.length_cons]
    omega

end Items

theorem SpellsMember.length_lt {value : Datum → List Char → List Char → Prop}
    {m : String × Datum} {s t : List Char} (h : SpellsMember value m s t)
    (hvalue : ∀ s t, value m.2 s t → t.length < s.length) : t.length < s.length := by
  cases h with
  | named hname hc hb hd =>
    have := hname.length_lt
    have := hc.length_le
    have := hb.length_le
    have := hvalue _ _ hd
    rw [List.length_cons] at *
    omega

/-- A datum takes up some of the text. -/
theorem Spells.length_lt : (d : Datum) → ∀ s t, Spells d s t → t.length < s.length
  | .null, _, _, .null t => by simp only [List.length_cons]; omega
  | .bool _, _, _, .true t => by simp only [List.length_cons]; omega
  | .bool _, _, _, .false t => by simp only [List.length_cons]; omega
  | .number n, _, _, .number _ t => by
    rw [List.length_append]
    exact Nat.lt_add_of_pos_left Nat.length_toDigits_pos
  | .numeral _, _, _, .numeral t h => by
    rw [List.length_append]
    refine Nat.lt_add_of_pos_left ?_
    cases h with
    | positive n _ =>
      rw [List.length_append]
      exact Nat.lt_add_right _ Nat.length_toDigits_pos
    | negative n _ => exact Nat.succ_pos _
  | .text _, _, _, .text h => by
    have := h.length_lt
    rw [List.length_cons]
    omega
  | .list ds, _, _, .list h => by
    have := h.length_lt fun d hd => Spells.length_lt d
    rw [List.length_cons]
    omega
  | .object ms, _, _, .object h => by
    have := h.length_lt fun m hm s t h => h.length_lt (Spells.length_lt m.2)
    rw [List.length_cons]
    omega
termination_by d => sizeOf d
decreasing_by
  · have := List.sizeOf_lt_of_mem hd
    simp only [Datum.list.sizeOf_spec]
    omega
  · have := List.sizeOf_lt_of_mem hm
    cases m
    simp only [Datum.object.sizeOf_spec, Prod.mk.sizeOf_spec] at *
    omega

end InstallMedia.Json
