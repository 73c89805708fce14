import InstallMedia.Files.Path
import InstallMedia.Proofs.Text.Split
import Mathlib.Data.List.TakeWhile

/-!
# Where paths lead

A path is read without looking at any tree: two dots take the name before them away, and lead up if
there is none.  What is left are steps up and names, the place of the path.  A name seen from a
directory leads from the place of the directory to the place of the name, so it stays below the
directory unless it is absolute or leads up.

## Main definitions

* `FilePath.Place`, `FilePath.place`: steps up, and names after them
* `FilePath.Place.append`: a place seen from another one
* `FilePath.Place.IsBelow`: a place at or below another one
* `FilePath.StaysBelow`: names that stay below a directory

## Main results

* `FilePath.place_join`: the place of a name seen from a directory
* `FilePath.isBelow_place_join_iff`: when that place is below the directory
* `FilePath.staysBelow_of_up_eq_zero`: names that lead nowhere else
-/

namespace InstallMedia.FilePath

/-- Steps up and names after them, from the root or from where relative paths begin. -/
structure Place where
  absolute : Bool
  /-- The number of steps up.  There are none from the root. -/
  up : Nat := 0
  names : List String := []
  deriving DecidableEq, Repr

namespace Place

variable {base place : Place}

/-- The place above: the last name is taken away, and without names there is one step up more,
unless it is one from the root. -/
def above (place : Place) : Place :=
  if place.names = [] then
    if place.absolute then place else { place with up := place.up + 1 }
  else { place with names := place.names.dropLast }

/-- Where one component leads. -/
def enter (place : Place) (component : String) : Place :=
  if component = "" ∨ component = "." then place
  else if component = ".." then place.above
  else { place with names := place.names ++ [component] }

@[simp] theorem enter_blank (place : Place) : place.enter "" = place := by simp [enter]

@[simp] theorem absolute_above (place : Place) : place.above.absolute = place.absolute := by
  unfold above
  split
  · split <;> rfl
  · rfl

@[simp] theorem absolute_enter (place : Place) (component : String) :
    (place.enter component).absolute = place.absolute := by
  unfold enter
  split
  · rfl
  · split
    · exact absolute_above place
    · rfl

/-- The place so many steps up. -/
def climb (place : Place) : Nat → Place
  | 0 => place
  | n + 1 => (place.climb n).above

/-- Names are taken away one by one; then steps up are counted. -/
theorem climb_eq (place : Place) (n : Nat) :
    place.climb n =
      { absolute := place.absolute
        up := if place.absolute then place.up else place.up + (n - place.names.length)
        names := place.names.take (place.names.length - n) } := by
  induction n with
  | zero => simp [climb]
  | succ n ih =>
    rw [climb, ih, above]
    by_cases left : n < place.names.length
    -- A name is left, and it is taken away.
    · have more : ¬ place.names.length - n = 0 := by omega
      have none : ¬ place.names = [] := by
        intro h
        simp [h] at left
      have steps : n + 1 - place.names.length = n - place.names.length := by omega
      rw [if_neg (by simp [more, none])]
      simp [List.dropLast_eq_take, List.take_take, steps]
      omega
    · have fewer : place.names.length - n = 0 := by omega
      have fewer' : place.names.length - (n + 1) = 0 := by omega
      have steps : n + 1 - place.names.length = n - place.names.length + 1 := by omega
      rw [if_pos (by simp [fewer])]
      cases habs : place.absolute <;> simp [fewer, fewer', steps, Nat.add_assoc]

/-- A place seen from another one. -/
def append (base place : Place) : Place :=
  if place.absolute then place
  else { base.climb place.up with names := (base.climb place.up).names ++ place.names }

theorem append_of_relative (h : place.absolute = false) (base : Place) :
    base.append place =
      { base.climb place.up with names := (base.climb place.up).names ++ place.names } := by
  simp [append, h]

/-- One step up from a place seen from another one is a step up from the place, or from the other
one. -/
theorem append_above (h : place.absolute = false) (base : Place) :
    base.append place.above = (base.append place).above := by
  have h' : place.above.absolute = false := by rw [absolute_above, h]
  rw [append_of_relative h', append_of_relative h]
  by_cases none : place.names = []
  · have step : place.above = { place with up := place.up + 1 } := by simp [above, none, h]
    rw [step]
    simp only [none, List.append_nil]
    rfl
  · simp [above, none, List.dropLast_append_of_ne_nil]

theorem append_enter (h : place.absolute = false) (base : Place) (component : String) :
    base.append (place.enter component) = (base.append place).enter component := by
  unfold enter
  split
  · rfl
  · split
    · exact append_above h base
    · have h' : { place with names := place.names ++ [component] }.absolute = false := h
      rw [append_of_relative h', append_of_relative h]
      simp

/-- Components lead from a place seen from another one as they lead from the place. -/
theorem append_foldl_enter (h : place.absolute = false) (base : Place) (components : List String) :
    base.append (components.foldl enter place) = components.foldl enter (base.append place) := by
  induction components generalizing place with
  | nil => rfl
  | cons component rest ih =>
    rw [List.foldl_cons, List.foldl_cons, ih (by rw [absolute_enter, h]), append_enter h]

/-- A place at or below another one. -/
structure IsBelow (base place : Place) : Prop where
  absolute : place.absolute = base.absolute
  up : place.up = base.up
  names : base.names <+: place.names

instance (base place : Place) : Decidable (base.IsBelow place) :=
  decidable_of_iff (place.absolute = base.absolute ∧ place.up = base.up ∧
    base.names <+: place.names) ⟨fun ⟨h, h', h''⟩ => ⟨h, h', h''⟩, fun h => ⟨h.1, h.2, h.3⟩⟩

/-- A place seen from another one is below it if the names that are taken away come again, and no
step up leads out of all of them. -/
theorem isBelow_append_iff (h : place.absolute = false) :
    base.IsBelow (base.append place) ↔
      (base.absolute = true ∨ place.up ≤ base.names.length) ∧
        base.names.drop (base.names.length - place.up) <+: place.names := by
  rw [append_of_relative h, climb_eq]
  have split : base.names <+: base.names.take (base.names.length - place.up) ++ place.names ↔
      base.names.drop (base.names.length - place.up) <+: place.names := by
    have whole := List.take_append_drop (base.names.length - place.up) base.names
    calc base.names <+: base.names.take (base.names.length - place.up) ++ place.names
        ↔ base.names.take (base.names.length - place.up) ++
              base.names.drop (base.names.length - place.up) <+:
            base.names.take (base.names.length - place.up) ++ place.names := by rw [whole]
      _ ↔ _ := List.prefix_append_right_inj _
  constructor
  · rintro ⟨-, hup, hnames⟩
    refine ⟨?_, split.mp hnames⟩
    cases habs : base.absolute with
    | true => exact Or.inl rfl
    | false =>
      simp only [habs, Bool.false_eq_true, if_false] at hup
      exact Or.inr (by omega)
  · rintro ⟨hup, hnames⟩
    refine ⟨rfl, ?_, split.mpr hnames⟩
    rcases hup with habs | fewer
    · exact if_pos habs
    · have none : place.up - base.names.length = 0 := by omega
      simp [none]

end Place

/-! ## Paths -/

/-- The place of a path. -/
def place (path : String) : Place :=
  (components path).foldl Place.enter { absolute := isAbsolute path }

theorem absolute_foldl_enter (place : Place) (components : List String) :
    (components.foldl Place.enter place).absolute = place.absolute := by
  induction components generalizing place with
  | nil => rfl
  | cons component rest ih => rw [List.foldl_cons, ih, Place.absolute_enter]

@[simp] theorem absolute_place (path : String) : (place path).absolute = isAbsolute path :=
  absolute_foldl_enter _ _

/-- A slash ends the components of a path. -/
theorem components_append (before after : String) :
    components (before ++ "/" ++ after) = components before ++ components after := by
  have chars : (before ++ "/" ++ after).toList = before.toList ++ '/' :: after.toList := by simp
  rw [components, chars, Split.fields_append (by simp), List.map_append]
  rfl

/-- A path that does not begin a text is as absolute as the text. -/
theorem isAbsolute_append {before : String} (h : before ≠ "") (after : String) :
    isAbsolute (before ++ after) = isAbsolute before := by
  obtain ⟨c, rest, hc⟩ := List.exists_cons_of_ne_nil (l := before.toList) (by simpa using h)
  simp [isAbsolute, hc]

/-- A name leads from the place of a directory to its own place. -/
theorem place_join (base name : String) :
    place (join base name) = (place base).append (place name) := by
  cases absolute : isAbsolute name with
  | true => simp [join, Place.append, absolute]
  | false =>
    -- Seen from the directory, the components of the name follow those of the directory.
    have seen : (place base).append (place name) =
        (components name).foldl Place.enter (place base) := by
      have start : (place base).append { absolute := false } = place base := by
        rw [Place.append_of_relative rfl, Place.climb, List.append_nil]
      rw [place.eq_def name, absolute, Place.append_foldl_enter rfl, start]
    rw [seen, join, if_neg (by simp [absolute])]
    by_cases empty : base = ""
    · subst empty
      rw [if_pos (Or.inl rfl), String.empty_append, place, absolute]
      rfl
    by_cases slashed : base.toList.getLast? = some '/'
    · obtain ⟨front, hf⟩ := List.getLast?_eq_some_iff.mp slashed
      have whole : base = String.ofList front ++ "/" ++ "" := by
        apply String.toList_inj.mp
        simp [hf]
      have last : components base = components (String.ofList front) ++ [""] := by
        rw [whole, components_append]
        rfl
      have joined : components (base ++ name) =
          components (String.ofList front) ++ components name := by
        rw [← components_append, whole, String.append_empty]
      rw [if_pos (Or.inr slashed), place, place, joined, last, isAbsolute_append empty]
      simp
    · rw [if_neg (not_or.mpr ⟨empty, slashed⟩), place, components_append, String.append_assoc,
        isAbsolute_append empty, List.foldl_append]
      rfl

/-- Names that stay below a directory: absolute ones of places below it, and others that take no
name of it away that does not come again. -/
def StaysBelow (base name : String) : Prop :=
  if isAbsolute name then (place base).IsBelow (place name)
  else
    (isAbsolute base = true ∨ (place name).up ≤ (place base).names.length) ∧
      (place base).names.drop ((place base).names.length - (place name).up) <+:
        (place name).names

/-- When a name seen from a directory leads to a place below it. -/
theorem isBelow_place_join_iff (base name : String) :
    (place base).IsBelow (place (join base name)) ↔ StaysBelow base name := by
  rw [place_join, StaysBelow]
  cases absolute : isAbsolute name with
  | true => simp [Place.append, absolute]
  | false => rw [Place.isBelow_append_iff (by rw [absolute_place, absolute]), absolute_place]; rfl

instance (base name : String) : Decidable (StaysBelow base name) :=
  decidable_of_iff _ (isBelow_place_join_iff base name)

/-- A name that is not absolute and never leads up stays below. -/
theorem staysBelow_of_up_eq_zero {name : String} (relative : isAbsolute name = false)
    (up : (place name).up = 0) (base : String) : StaysBelow base name := by
  rw [StaysBelow, relative, up]
  simp

end InstallMedia.FilePath
