import InstallMedia.Text.Split
import Mathlib.Data.List.Infix
import Mathlib.Data.List.TakeWhile

/-!
# Splitting texts: the laws

Fields have no separator in them, and the fields of two texts with a separator between them are the
fields of the one and of the other.  A text is split around the first place where another one
stands, and not at all if it stands nowhere.

## Main definitions

* `Split.IsFirst`: the first place where a list stands in another one

## Main results

* `Split.of_mem_fields`, `Split.fields_append`: all fields
* `Split.intercalate_fields`, `Split.fields_injective`: the fields give the text back
* `Split.fields_eq_iff`: what the fields are
* `Split.spec_of_atLast?`: the last separator
* `Split.atFirst?_eq_some_iff`: the first separator
* `Split.trimEnd_append`, `Split.eq_trimEnd_append`: what is trimmed off the end
* `Split.exists_eq_trim`, `Split.trim_append`: what is trimmed off at both ends
* `Split.strip?_eq_some_iff`: what follows the beginning of a list
* `Split.around?_eq_some_iff`: around the first place
-/

namespace InstallMedia.Split

variable {α : Type}

/-! ## Fields -/

section Fields

variable {isSeparator : α → Bool}

theorem fields_ne_nil (cs : List α) : fields isSeparator cs ≠ [] := by
  cases cs with
  | nil => simp [fields]
  | cons c rest =>
    rw [fields]
    split
    · simp
    · split <;> simp

theorem fields_cons_of_isSeparator {c : α} (h : isSeparator c = true) (rest : List α) :
    fields isSeparator (c :: rest) = [] :: fields isSeparator rest := by
  rw [fields, if_pos h]

/-- A character that is no separator belongs to the first field. -/
theorem fields_cons {c : α} (h : isSeparator c = false) {rest field : List α}
    {more : List (List α)} (hf : fields isSeparator rest = field :: more) :
    fields isSeparator (c :: rest) = (c :: field) :: more := by
  rw [fields, if_neg (by simp [h]), hf]

/-- What is in a field is in the text, and is no separator. -/
theorem of_mem_fields {cs field : List α} (h : field ∈ fields isSeparator cs) {c : α}
    (hc : c ∈ field) : c ∈ cs ∧ isSeparator c = false := by
  induction cs generalizing field with
  | nil => simp_all [fields]
  | cons d rest ih =>
    have later {field : List α} (h : field ∈ fields isSeparator rest) (hc : c ∈ field) :
        c ∈ d :: rest ∧ isSeparator c = false :=
      ⟨List.mem_cons_of_mem d (ih h hc).1, (ih h hc).2⟩
    cases sep : isSeparator d with
    | true =>
      rw [fields_cons_of_isSeparator sep] at h
      rcases List.mem_cons.mp h with rfl | h
      · simp at hc
      · exact later h hc
    | false =>
      obtain ⟨first, more, hf⟩ := List.exists_cons_of_ne_nil (fields_ne_nil rest)
      rw [fields_cons sep hf] at h
      rcases List.mem_cons.mp h with rfl | h
      · rcases List.mem_cons.mp hc with rfl | hc
        · exact ⟨List.mem_cons_self, sep⟩
        · exact later (hf ▸ List.mem_cons_self) hc
      · exact later (hf ▸ List.mem_cons_of_mem _ h) hc

/-- Between two texts a separator ends the fields of the one. -/
theorem fields_append {c : α} (h : isSeparator c = true) (before after : List α) :
    fields isSeparator (before ++ c :: after) =
      fields isSeparator before ++ fields isSeparator after := by
  induction before with
  | nil => exact fields_cons_of_isSeparator h after
  | cons d before ih =>
    rw [List.cons_append]
    cases sep : isSeparator d with
    | true =>
      rw [fields_cons_of_isSeparator sep, fields_cons_of_isSeparator sep, ih, List.cons_append]
    | false =>
      obtain ⟨first, more, hf⟩ := List.exists_cons_of_ne_nil (fields_ne_nil before)
      have joined : fields isSeparator (before ++ c :: after) =
          first :: (more ++ fields isSeparator after) := by
        rw [ih, hf, List.cons_append]
      rw [fields_cons sep hf, fields_cons sep joined, List.cons_append]

/-- A text without separators is its only field. -/
theorem fields_of_notMem {cs : List α} (h : ∀ c ∈ cs, isSeparator c = false) :
    fields isSeparator cs = [cs] := by
  induction cs with
  | nil => rfl
  | cons c cs ih =>
    obtain ⟨sep, rest⟩ := List.forall_mem_cons.mp h
    exact fields_cons sep (ih rest)

/-- Fields that are each written after a separator are read after an empty one. -/
theorem fields_flatMap_cons {c : α} (hc : isSeparator c = true) {list : List (List α)}
    (h : ∀ field ∈ list, ∀ d ∈ field, isSeparator d = false) :
    fields isSeparator (list.flatMap (c :: ·)) = [] :: list := by
  induction list with
  | nil => rfl
  | cons field list ih =>
    obtain ⟨first, more⟩ := List.forall_mem_cons.mp h
    have rest := ih more
    rw [List.flatMap_cons, List.cons_append, fields_cons_of_isSeparator hc]
    cases list with
    | nil => rw [List.flatMap_nil, List.append_nil, fields_of_notMem first]
    | cons next list =>
      rw [List.flatMap_cons, List.cons_append, fields_cons_of_isSeparator hc] at rest
      rw [List.flatMap_cons, List.cons_append, fields_append hc, fields_of_notMem first,
        List.tail_eq_of_cons_eq rest, List.singleton_append]

/-- The fields with the separator between them are the text. -/
theorem intercalate_fields [DecidableEq α] (sep : α) (cs : List α) :
    [sep].intercalate (fields (· = sep) cs) = cs := by
  induction cs with
  | nil => rfl
  | cons c cs ih =>
    have some_field : fields (· = sep) cs ≠ [] := fields_ne_nil cs
    obtain ⟨field, more, hf⟩ := List.exists_cons_of_ne_nil some_field
    rw [hf] at ih
    by_cases hc : c = sep
    · rw [fields_cons_of_isSeparator (by simpa using hc), hf, List.intercalate_cons_cons, ih, hc]
      rfl
    · rw [fields_cons (by simpa using hc) hf]
      cases more with
      | nil => simpa using ih
      | cons next more =>
        rw [List.intercalate_cons_cons] at ih ⊢
        rw [← ih, List.cons_append, List.cons_append]

/-- A separator in front of every field is one in front of them all, and one between them. -/
theorem flatMap_cons_eq_intercalate (sep : α) {list : List (List α)} (h : list ≠ []) :
    list.flatMap (sep :: ·) = sep :: [sep].intercalate list := by
  induction list with
  | nil => exact absurd rfl h
  | cons field list ih =>
    cases list with
    | nil => simp
    | cons next list =>
      rw [List.flatMap_cons, ih (by simp), List.intercalate_cons_cons]
      simp

theorem of_mem_intercalate {sep x : α} {list : List (List α)}
    (h : x ∈ [sep].intercalate list) : x = sep ∨ ∃ field ∈ list, x ∈ field := by
  have some_field : list ≠ [] := by
    rintro rfl
    simp at h
  have behind := List.mem_cons_of_mem sep h
  rw [← flatMap_cons_eq_intercalate sep some_field] at behind
  obtain ⟨field, hf, hx⟩ := List.mem_flatMap.mp behind
  rcases List.mem_cons.mp hx with rfl | hx
  · exact Or.inl rfl
  · exact Or.inr ⟨field, hf, hx⟩

/-- Fields with the separator between them are the fields of the text. -/
theorem fields_eq_iff [DecidableEq α] {sep : α} {cs : List α} {list : List (List α)} :
    fields (· = sep) cs = list ↔
      list ≠ [] ∧ (∀ field ∈ list, sep ∉ field) ∧ [sep].intercalate list = cs := by
  constructor
  · rintro rfl
    refine ⟨fields_ne_nil cs, fun field hf hs => ?_, intercalate_fields sep cs⟩
    simpa using (of_mem_fields hf hs).2
  · rintro ⟨some_field, clean, rfl⟩
    have plain : ∀ field ∈ list, ∀ d ∈ field, decide (d = sep) = false := by
      intro field hf d hd
      simpa using fun same : d = sep => clean field hf (same ▸ hd)
    have read := @fields_flatMap_cons _ (· = sep) sep (by simp) list plain
    rw [flatMap_cons_eq_intercalate sep some_field, fields_cons_of_isSeparator (by simp)] at read
    exact List.tail_eq_of_cons_eq read

/-- A separator in front of every field puts one in front of the text. -/
theorem flatMap_cons_fields [DecidableEq α] (sep : α) (cs : List α) :
    (fields (· = sep) cs).flatMap (sep :: ·) = sep :: cs := by
  rw [flatMap_cons_eq_intercalate sep (fields_ne_nil cs), intercalate_fields]

/-- Fields stay fields when every character but the separators is replaced by characters that are
none. -/
theorem fields_flatMap {β : Type} {isSeparator : α → Bool} {isSeparator' : β → Bool}
    {f : α → List β}
    (sep : ∀ c, isSeparator c = true → ∃ d, f c = [d] ∧ isSeparator' d = true)
    (other : ∀ c, isSeparator c = false → ∀ d ∈ f c, isSeparator' d = false) (cs : List α) :
    fields isSeparator' (cs.flatMap f) = (fields isSeparator cs).map (·.flatMap f) := by
  induction cs with
  | nil => rfl
  | cons c cs ih =>
    rw [List.flatMap_cons]
    cases h : isSeparator c with
    | true =>
      obtain ⟨d, hd, hs⟩ := sep c h
      rw [hd, List.singleton_append, fields_cons_of_isSeparator hs, ih,
        fields_cons_of_isSeparator h]
      rfl
    | false =>
      obtain ⟨field, more, hf⟩ := List.exists_cons_of_ne_nil (@fields_ne_nil _ isSeparator cs)
      rw [fields_cons h hf, List.map_cons, List.flatMap_cons]
      rw [hf, List.map_cons] at ih
      -- What replaces the character stands before the first field.
      have plain := other c h
      generalize f c = front at plain
      induction front with
      | nil => exact ih
      | cons d front ihf =>
        obtain ⟨hd, rest⟩ := List.forall_mem_cons.mp plain
        exact fields_cons hd (ihf rest)

/-- No two texts have the same fields, if there is one separator. -/
theorem fields_injective [DecidableEq α] (sep : α) :
    Function.Injective (fields (α := α) (· = sep)) :=
  Function.LeftInverse.injective (intercalate_fields sep)

end Fields

/-! ## The last separator -/

section Last

variable {isSeparator : α → Bool}

theorem atLast?_eq_none_iff {xs : List α} :
    atLast? isSeparator xs = none ↔ ∀ x ∈ xs, isSeparator x = false := by
  induction xs with
  | nil => simp [atLast?]
  | cons x xs ih =>
    rw [atLast?, List.forall_mem_cons, ← ih]
    cases atLast? isSeparator xs <;> simp

/-- A text is split at a separator, and there is none after it. -/
theorem spec_of_atLast? {xs before after : List α}
    (h : atLast? isSeparator xs = some (before, after)) :
    ∃ separator, xs = before ++ separator :: after ∧ (∀ x ∈ after, isSeparator x = false) ∧
      isSeparator separator = true := by
  induction xs generalizing before with
  | nil => simp [atLast?] at h
  | cons x xs ih =>
    rw [atLast?] at h
    cases later : atLast? isSeparator xs with
    | some parts =>
      obtain ⟨first, last⟩ := parts
      rw [later] at h
      obtain ⟨rfl, rfl⟩ : x :: first = before ∧ last = after := by simpa using h
      obtain ⟨separator, rfl, spec⟩ := ih later
      exact ⟨separator, rfl, spec⟩
    | none =>
      rw [later] at h
      dsimp only at h
      split at h
      · rename_i here
        obtain ⟨rfl, rfl⟩ : [] = before ∧ xs = after := by simpa using h
        exact ⟨x, rfl, atLast?_eq_none_iff.mp later, here⟩
      · simp at h

/-- The last separator is where none comes after it. -/
theorem atLast?_append {separator : α} (h : isSeparator separator = true) (before : List α)
    {after : List α} (none_after : ∀ x ∈ after, isSeparator x = false) :
    atLast? isSeparator (before ++ separator :: after) = some (before, after) := by
  induction before with
  | nil => rw [List.nil_append, atLast?, atLast?_eq_none_iff.mpr none_after, if_pos h]
  | cons x before ih => rw [List.cons_append, atLast?, ih]

end Last

/-! ## The first separator -/

/-- The first separator is where none comes before it. -/
theorem atFirst?_append {isSeparator : α → Bool} {separator : α} (h : isSeparator separator = true)
    {before : List α} (none_before : ∀ x ∈ before, isSeparator x = false) (after : List α) :
    atFirst? isSeparator (before ++ separator :: after) = some (before, after) := by
  induction before with
  | nil => rw [List.nil_append, atFirst?, if_pos h]
  | cons x before ih =>
    obtain ⟨hx, more⟩ := List.forall_mem_cons.mp none_before
    rw [List.cons_append, atFirst?, if_neg (by simp [hx]), ih more]
    rfl

/-- A text is split at its first separator. -/
theorem atFirst?_eq_some_iff [DecidableEq α] {separator : α} {xs before after : List α} :
    atFirst? (· = separator) xs = some (before, after) ↔
      xs = before ++ separator :: after ∧ separator ∉ before := by
  constructor
  · intro h
    induction xs generalizing before with
    | nil => simp [atFirst?] at h
    | cons x xs ih =>
      rw [atFirst?] at h
      by_cases hx : x = separator
      · obtain ⟨rfl, rfl⟩ : [] = before ∧ xs = after := by simpa [hx] using h
        simp [hx]
      · rw [if_neg (by simpa using hx)] at h
        obtain ⟨⟨front, rest⟩, later, he⟩ := Option.map_eq_some_iff.mp h
        obtain ⟨rfl, rfl⟩ : x :: front = before ∧ rest = after := by simpa using he
        obtain ⟨rfl, none_before⟩ := ih later
        exact ⟨rfl, by simp [Ne.symm hx, none_before]⟩
  · rintro ⟨rfl, none_before⟩
    refine atFirst?_append (by simp) (fun x hx => ?_) after
    simpa using fun same : x = separator => none_before (same ▸ hx)

/-! ## Trimming -/

/-- Nothing is trimmed off a list that ends with an element that stays. -/
theorem trimEnd_eq_self {drop : α → Bool} {xs : List α}
    (h : ∀ x, xs.getLast? = some x → drop x = false) : trimEnd drop xs = xs := by
  rcases List.eq_nil_or_concat xs with rfl | ⟨ys, x, rfl⟩
  · rfl
  · have stays : drop x = false := h x (by simp)
    simp [trimEnd, stays]

theorem trimEnd_append_all {drop : α → Bool} (xs : List α) {ys : List α}
    (h : ∀ y ∈ ys, drop y = true) : trimEnd drop (xs ++ ys) = trimEnd drop xs := by
  unfold trimEnd
  rw [List.reverse_append, List.dropWhile_append_of_pos (by simpa using h)]

/-- Trimming stops at an element that stays. -/
theorem trimEnd_append_cons {drop : α → Bool} {x : α} (hx : drop x = false) (xs ys : List α) :
    trimEnd drop (xs ++ x :: ys) = xs ++ x :: trimEnd drop ys := by
  simp only [trimEnd, List.reverse_append, List.reverse_cons, List.append_assoc,
    List.singleton_append, List.dropWhile_append]
  split
  -- Either all that follows is trimmed off, or the trimming stops before `x` is reached.
  · rename_i gone
    have none_left : ys.reverse.dropWhile drop = [] := by simpa using gone
    simp [none_left, hx]
  · simp

theorem trimEnd_append {drop : α → Bool} {xs : List α} (h : ∀ x ∈ xs, drop x = false)
    (ys : List α) : trimEnd drop (xs ++ ys) = xs ++ trimEnd drop ys := by
  rcases List.eq_nil_or_concat xs with rfl | ⟨front, x, rfl⟩
  · rfl
  · rw [List.concat_eq_append, List.append_assoc, List.singleton_append,
      trimEnd_append_cons (h x (by simp)), List.append_assoc, List.singleton_append]

/-- What is trimmed off is what stood at the end. -/
theorem eq_trimEnd_append (drop : α → Bool) (xs : List α) :
    ∃ ys, (∀ y ∈ ys, drop y = true) ∧ xs = trimEnd drop xs ++ ys := by
  refine ⟨(xs.reverse.takeWhile drop).reverse, fun y hy => ?_, ?_⟩
  · exact List.mem_takeWhile_imp (List.mem_reverse.mp hy)
  · rw [trimEnd, ← List.reverse_append, List.takeWhile_append_dropWhile, List.reverse_reverse]

/-- Nothing is trimmed off a list of elements that stay. -/
theorem trim_eq_self {drop : α → Bool} {xs : List α} (h : ∀ x ∈ xs, drop x = false) :
    trim drop xs = xs := by
  have front : xs.dropWhile drop = xs := by
    cases xs with
    | nil => rfl
    | cons x xs => exact List.dropWhile_cons_of_neg (by simp [h x])
  rw [trim, front]
  exact trimEnd_eq_self fun x hx => h x (List.mem_of_getLast? hx)

/-- What is trimmed off a list stands at its ends. -/
theorem exists_eq_trim (drop : α → Bool) (xs : List α) :
    ∃ front back, xs = front ++ trim drop xs ++ back ∧ (∀ x ∈ front, drop x = true) ∧
      ∀ x ∈ back, drop x = true := by
  obtain ⟨back, dropped, whole⟩ := eq_trimEnd_append drop (xs.dropWhile drop)
  refine ⟨xs.takeWhile drop, back, ?_, List.all_eq_true.mp List.all_takeWhile, dropped⟩
  rw [trim, List.append_assoc, ← whole, List.takeWhile_append_dropWhile]

/-- Around elements that stay, all that is to be trimmed off is. -/
theorem trim_append {drop : α → Bool} {front middle back : List α}
    (hfront : ∀ x ∈ front, drop x = true) (hmiddle : ∀ x ∈ middle, drop x = false)
    (hback : ∀ x ∈ back, drop x = true) : trim drop (front ++ middle ++ back) = middle := by
  rw [trim, List.append_assoc, List.dropWhile_append_of_pos hfront]
  cases middle with
  | nil =>
    have gone : back.dropWhile drop = [] := List.dropWhile_eq_nil_iff.mpr hback
    rw [List.nil_append, gone]
    rfl
  | cons x middle =>
    rw [List.cons_append, List.dropWhile_cons_of_neg (by simp [hmiddle x]), ← List.cons_append,
      trimEnd_append_all _ hback]
    exact trimEnd_eq_self fun y hy => hmiddle y (List.mem_of_getLast? hy)

/-! ## Places -/

/-- A place of `middle`, before which there is none. -/
structure IsFirst (middle xs before after : List α) : Prop where
  eq : xs = before ++ middle ++ after
  first : ∀ before' after', xs = before' ++ middle ++ after' → before.length ≤ before'.length

/-- A place is the first one if what it begins with does not stand before it. -/
theorem isFirst_of_notMem {m : α} {middle before : List α} (h : m ∉ before) (after : List α) :
    IsFirst (m :: middle) (before ++ m :: middle ++ after) before after := by
  refine ⟨rfl, fun before' after' same => Nat.le_of_not_lt fun shorter => h ?_⟩
  have here := congrArg (·[before'.length]?) same
  simp only [List.append_assoc, List.getElem?_append_left shorter,
    List.getElem?_append_right le_rfl, Nat.sub_self, List.cons_append,
    List.getElem?_cons_zero] at here
  exact List.mem_of_getElem? here

/-- There is one first place at most. -/
theorem IsFirst.unique {middle xs before after before' after' : List α}
    (h : IsFirst middle xs before after) (h' : IsFirst middle xs before' after') :
    before = before' ∧ after = after' := by
  have length := Nat.le_antisymm (h.first _ _ h'.eq) (h'.first _ _ h.eq)
  have whole : before ++ (middle ++ after) = before' ++ (middle ++ after') := by
    rw [← List.append_assoc, ← List.append_assoc, ← h.eq, ← h'.eq]
  obtain ⟨same, rest⟩ := List.append_inj whole length
  exact ⟨same, List.append_cancel_left rest⟩

variable [DecidableEq α]

theorem strip?_eq_some_iff {front xs rest : List α} :
    strip? front xs = some rest ↔ xs = front ++ rest := by
  induction front generalizing xs with
  | nil => simp [strip?]
  | cons f front ih =>
    cases xs with
    | nil => simp [strip?]
    | cons x xs =>
      rw [strip?, List.cons_append, List.cons.injEq]
      split
      · rename_i same
        rw [ih]
        simp [same]
      · rename_i differ
        simp [Ne.symm differ]

theorem strip?_isSome_iff {front xs : List α} :
    (strip? front xs).isSome = true ↔ front <+: xs := by
  rw [Option.isSome_iff_exists]
  exact exists_congr fun rest => strip?_eq_some_iff.trans eq_comm

variable {middle xs before after : List α}

theorem around?_cons_of_some {x : α} (h : strip? middle (x :: xs) = some after) :
    around? middle (x :: xs) = some ([], after) := by
  rw [around?, h]

theorem around?_cons_of_none {x : α} (h : strip? middle (x :: xs) = none) :
    around? middle (x :: xs) =
      (around? middle xs).map fun (before, after) => (x :: before, after) := by
  rw [around?, h]

/-- Where a list is split, there is a first place. -/
theorem isFirst_of_around? (h : around? middle xs = some (before, after)) :
    IsFirst middle xs before after := by
  induction xs generalizing before with
  | nil =>
    rw [around?] at h
    split at h
    · rename_i none
      obtain ⟨rfl, rfl⟩ : [] = before ∧ [] = after := by simpa using h
      exact ⟨by simp [none], fun _ _ _ => Nat.zero_le _⟩
    · exact absurd h (by simp)
  | cons x xs ih =>
    cases here : strip? middle (x :: xs) with
    | some rest =>
      rw [around?_cons_of_some here] at h
      obtain ⟨rfl, rfl⟩ : [] = before ∧ rest = after := by simpa using h
      exact ⟨strip?_eq_some_iff.mp here, fun _ _ _ => Nat.zero_le _⟩
    | none =>
      rw [around?_cons_of_none here] at h
      obtain ⟨⟨front, rest⟩, hf, he⟩ := Option.map_eq_some_iff.mp h
      obtain ⟨rfl, rfl⟩ : x :: front = before ∧ rest = after := by simpa using he
      have later := ih hf
      refine ⟨by rw [later.eq]; rfl, fun before' after' he => ?_⟩
      -- A place before all the others would be here.
      cases before' with
      | nil => exact absurd (strip?_eq_some_iff.mpr he) (by simp [here])
      | cons y before' => exact Nat.succ_le_succ (later.first before' after' (List.cons.inj he).2)

/-- A list in which `middle` stands is split. -/
theorem around?_isSome_of_eq (h : xs = before ++ middle ++ after) :
    (around? middle xs).isSome = true := by
  induction xs generalizing before with
  | nil =>
    have none : middle = [] := by simp_all
    simp [around?, none]
  | cons x xs ih =>
    cases here : strip? middle (x :: xs) with
    | some rest => simp [around?_cons_of_some here]
    | none =>
      rw [around?_cons_of_none here, Option.isSome_map]
      cases before with
      | nil => exact absurd (strip?_eq_some_iff.mpr h) (by simp [here])
      | cons y before => exact ih (List.cons.inj h).2

theorem around?_eq_some_iff :
    around? middle xs = some (before, after) ↔ IsFirst middle xs before after := by
  refine ⟨isFirst_of_around?, fun h => ?_⟩
  obtain ⟨⟨before', after'⟩, hs⟩ := Option.isSome_iff_exists.mp (around?_isSome_of_eq h.eq)
  obtain ⟨rfl, rfl⟩ := h.unique (isFirst_of_around? hs)
  exact hs

end InstallMedia.Split
