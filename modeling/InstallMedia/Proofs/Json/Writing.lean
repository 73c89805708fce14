import InstallMedia.Json.Value
import InstallMedia.Proofs.Json.Grammar

/-!
# Writing JSON values

What is written for a value spells it, whether each part stands on a line of its own or not, and
whatever characters its texts have.

## Main definitions

* `Json.Value.datum`: what a written value is when it is read

## Main results

* `Json.spellsText_escaped`: every text is written as a spelling of it
* `Json.Value.holds_pretty`, `Json.Value.holds_compact`: so is every value
-/

namespace InstallMedia.Json

/-! ## Texts -/

/-- The digits that a control character is escaped with. -/
theorem fourDigits?_control : ∀ n < 0x20,
    fourDigits? ['0', '0', lowerDigit (n / 16), lowerDigit (n % 16)] = some n ∧
      isLeading n = false ∧ isTrailing n = false := by
  decide

theorem spellsChar_escapedChar (c : Char) (t : List Char) :
    SpellsChar c (escapedChar c ++ t) t := by
  unfold escapedChar
  -- Seven characters have an escape of their own.
  iterate 7
    split
    · rename_i h
      subst h
      exact SpellsChar.short t rfl
  rename_i hq hb _ _ _ _ _
  split
  · rename_i h
    obtain ⟨hn, hl, ht⟩ := fourDigits?_control c.toNat (of_decide_eq_true h)
    have spelled := SpellsChar.numeric t hn hl ht
    rwa [Char.ofNat_toNat] at spelled
  · rename_i h
    exact SpellsChar.plain t hq hb (Bool.eq_false_iff.mpr h)

/-- Every text is written as a spelling of it. -/
theorem spellsText_escaped (cs t : List Char) :
    SpellsText cs (cs.flatMap escapedChar ++ '"' :: t) t := by
  induction cs with
  | nil => exact SpellsText.quote t
  | cons c cs ih =>
    rw [List.flatMap_cons, List.append_assoc]
    exact SpellsText.char (spellsChar_escapedChar c _) ih

theorem toList_escaped (s : String) (t : List Char) :
    (escaped s).toList ++ t = '"' :: (s.toList.flatMap escapedChar ++ '"' :: t) := by
  rw [escaped, String.toList_ofList]
  simp only [List.cons_append, List.append_assoc, List.nil_append]

theorem spells_escaped (s : String) (t : List Char) :
    Spells (.text s) ((escaped s).toList ++ t) t := by
  rw [toList_escaped]
  exact Spells.text (spellsText_escaped _ t)

/-- A name and a value after it are a member. -/
theorem spellsMember_escaped {name : String} {d : Datum} {s t u v : List Char}
    (hc : Blanks s (':' :: t)) (hb : Blanks t u) (hd : Spells d u v) :
    SpellsMember Spells (name, d) ((escaped name).toList ++ s) v := by
  rw [toList_escaped]
  exact SpellsMember.named (spellsText_escaped _ s) hc hb hd

/-! ## Values -/

theorem Blanks.of_forall {b : List Char} (h : ∀ x ∈ b, isBlank x = true) (t : List Char) :
    Blanks (b ++ t) t := by
  induction b with
  | nil => exact Blanks.none t
  | cons x b ih =>
    exact Blanks.more (h x List.mem_cons_self) (ih fun y hy => h y (List.mem_cons_of_mem _ hy))

namespace Value

mutual

/-- What a written value is when it is read. -/
def datum : Value → Datum
  | .bool value => .bool value
  | .number n => .number n
  | .text s => .text s
  | .list xs => .list (elementData xs)
  | .object ms => .object (memberData ms)

def elementData : List Value → List Datum
  | [] => []
  | x :: xs => datum x :: elementData xs

def memberData : List (String × Value) → List (String × Datum)
  | [] => []
  | (name, x) :: rest => (name, datum x) :: memberData rest

end

theorem blanks_newline (depth : Nat) (t : List Char) :
    Blanks ((newline depth).toList ++ t) t := by
  apply Blanks.of_forall
  intro x hx
  rw [newline, String.toList_append, String.toList_join, List.mem_append, List.mem_flatMap] at hx
  rcases hx with hx | ⟨s, hs, hx⟩
  · rw [List.mem_singleton.mp hx]
    rfl
  · rw [List.eq_of_mem_replicate hs] at hx
    simp only [String.reduceToList, List.mem_cons, List.not_mem_nil, or_false, or_self] at hx
    rw [hx]
    rfl

theorem spells_atom_bool (value : Bool) (t : List Char) :
    Spells (.bool value) ((atom (.bool value)).toList ++ t) t := by
  cases value with
  | true => exact Spells.true t
  | false => exact Spells.false t

theorem spells_atom_number (n : Nat) (t : List Char) :
    Spells (.number n) ((atom (.number n)).toList ++ t) t := by
  rw [atom, Nat.toString_eq_ofList_toDigits, String.toList_ofList]
  exact Spells.number n t

/-! ### Each part on a line of its own -/

mutual

theorem spells_prettyAt (depth : Nat) (t : List Char) :
    (x : Value) → Spells x.datum ((prettyAt depth x).toList ++ t) t
  | .bool value => spells_atom_bool value t
  | .number n => spells_atom_number n t
  | .text s => spells_escaped s t
  | .list [] => by
    simp only [prettyAt, String.reduceToList, List.cons_append, List.nil_append]
    exact Spells.list (Encloses.empty (Blanks.none _))
  | .object [] => by
    simp only [prettyAt, String.reduceToList, List.cons_append, List.nil_append]
    exact Spells.object (Encloses.empty (Blanks.none _))
  | .list (x :: xs) => by
    simp only [prettyAt, String.toList_append, String.reduceToList, List.cons_append,
      List.nil_append, List.append_assoc]
    exact Spells.list (Encloses.items (blanks_newline _ _) (spells_prettyAt _ _ x)
      (follows_prettyElements depth _ t xs))
  | .object ((name, x) :: rest) => by
    simp only [prettyAt, String.toList_append, String.reduceToList, List.cons_append,
      List.nil_append, List.append_assoc]
    exact Spells.object (Encloses.items (blanks_newline _ _)
      (spellsMember_escaped (Blanks.none _) (Blanks.more rfl (Blanks.none _))
        (spells_prettyAt _ _ x)) (follows_prettyMembers depth _ t rest))

theorem follows_prettyElements (outer depth : Nat) (t : List Char) :
    (xs : List Value) → Follows Spells ']' (elementData xs)
      ((prettyElements depth xs).toList ++ ((newline outer).toList ++ ']' :: t)) t
  | [] => Follows.close (blanks_newline _ _)
  | x :: xs => by
    simp only [prettyElements, String.toList_append, String.reduceToList, List.cons_append,
      List.nil_append, List.append_assoc]
    exact Follows.comma (Blanks.none _) (blanks_newline _ _) (spells_prettyAt _ _ x)
      (follows_prettyElements outer depth t xs)

theorem follows_prettyMembers (outer depth : Nat) (t : List Char) :
    (ms : List (String × Value)) → Follows (SpellsMember Spells) '\x7d' (memberData ms)
      ((prettyMembers depth ms).toList ++ ((newline outer).toList ++ '\x7d' :: t)) t
  | [] => Follows.close (blanks_newline _ _)
  | (name, x) :: rest => by
    simp only [prettyMembers, String.toList_append, String.reduceToList, List.cons_append,
      List.nil_append, List.append_assoc]
    exact Follows.comma (Blanks.none _) (blanks_newline _ _)
      (spellsMember_escaped (Blanks.none _) (Blanks.more rfl (Blanks.none _))
        (spells_prettyAt _ _ x)) (follows_prettyMembers outer depth t rest)

end

theorem holds_pretty (x : Value) : Holds x.datum x.pretty := by
  have spelled := spells_prettyAt 0 [] x
  rw [List.append_nil] at spelled
  exact ⟨_, [], Blanks.none _, spelled, Blanks.none []⟩

/-! ### Without blanks -/

mutual

theorem spells_compact (t : List Char) :
    (x : Value) → Spells x.datum ((compact x).toList ++ t) t
  | .bool value => spells_atom_bool value t
  | .number n => spells_atom_number n t
  | .text s => spells_escaped s t
  | .list [] => by
    simp only [compact, String.reduceToList, List.cons_append, List.nil_append]
    exact Spells.list (Encloses.empty (Blanks.none _))
  | .object [] => by
    simp only [compact, String.reduceToList, List.cons_append, List.nil_append]
    exact Spells.object (Encloses.empty (Blanks.none _))
  | .list (x :: xs) => by
    simp only [compact, String.toList_append, String.reduceToList, List.cons_append,
      List.nil_append, List.append_assoc]
    exact Spells.list (Encloses.items (Blanks.none _) (spells_compact _ x)
      (follows_compactElements t xs))
  | .object ((name, x) :: rest) => by
    simp only [compact, String.toList_append, String.reduceToList, List.cons_append,
      List.nil_append, List.append_assoc]
    exact Spells.object (Encloses.items (Blanks.none _)
      (spellsMember_escaped (Blanks.none _) (Blanks.none _) (spells_compact _ x))
      (follows_compactMembers t rest))

theorem follows_compactElements (t : List Char) :
    (xs : List Value) → Follows Spells ']' (elementData xs)
      ((compactElements xs).toList ++ ']' :: t) t
  | [] => Follows.close (Blanks.none _)
  | x :: xs => by
    simp only [compactElements, String.toList_append, String.reduceToList, List.cons_append,
      List.nil_append, List.append_assoc]
    exact Follows.comma (Blanks.none _) (Blanks.none _) (spells_compact _ x)
      (follows_compactElements t xs)

theorem follows_compactMembers (t : List Char) :
    (ms : List (String × Value)) → Follows (SpellsMember Spells) '\x7d' (memberData ms)
      ((compactMembers ms).toList ++ '\x7d' :: t) t
  | [] => Follows.close (Blanks.none _)
  | (name, x) :: rest => by
    simp only [compactMembers, String.toList_append, String.reduceToList, List.cons_append,
      List.nil_append, List.append_assoc]
    exact Follows.comma (Blanks.none _) (Blanks.none _)
      (spellsMember_escaped (Blanks.none _) (Blanks.none _) (spells_compact _ x))
      (follows_compactMembers t rest)

end

theorem holds_compact (x : Value) : Holds x.datum x.compact := by
  have spelled := spells_compact [] x
  rw [List.append_nil] at spelled
  exact ⟨_, [], Blanks.none _, spelled, Blanks.none []⟩

theorem datum_texts (ss : List String) :
    (texts ss).datum = .list (ss.map .text) := by
  have each : elementData (ss.map .text) = ss.map .text := by
    induction ss with
    | nil => rfl
    | cons s ss ih => exact congrArg (Datum.text s :: ·) ih
  exact congrArg Datum.list each

end Value

end InstallMedia.Json
