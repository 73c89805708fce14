import InstallMedia.Proofs.Text.Percent
import InstallMedia.Url.Path
import Mathlib.Data.List.Infix

/-!
# Names below a path: the laws

Names that are added to a path stay below it, with one exception.  A name of two dots is left out,
but blanks are left out of a name only after that: two dots with blanks among them lead up.  They
lead out of the path if nothing was added before them and the last segment of the path can be taken
away, and no further than that.

## Main definitions

* `Url.Path.IsPlace`: a segment that is no direction and is read as one segment
* `Url.Path.stem`: the segments that names are to stay below
* `Url.Path.PointsUp`, `Url.Path.firstAdded?`, `Url.Path.Firm`: what the exception is about
* `Url.Path.Within`: names that stay below a path

## Main results

* `Url.Path.stem_prefix_extend`, `Url.Path.within_of_stem_prefix_extend`: when names stay below
* `Url.Path.dropLast_stem_prefix_extend`: how far the others lead
* `Url.Path.isPlace_resolveFrom`, `Url.Path.isPlace_extend`: no segment is a direction
-/

namespace InstallMedia.Url.Path

/-! ## Segments -/

/-- A segment that is no direction, and that a reader of the whole path takes for one segment. -/
structure IsPlace (segment : List Char) : Prop where
  slash_notMem : '/' ∉ segment
  not_dot : isDot segment = false
  not_dotDot : isDotDot segment = false

theorem isPlace_nil : IsPlace [] := ⟨by simp, by decide, by decide⟩

/-- What no slash was written from has no slash. -/
theorem slash_notMem_encodeChars {set : Percent.Set} {cs : List Char}
    (h : set '/' = true ∨ '/' ∉ cs) : '/' ∉ Percent.encodeChars set cs := by
  intro hm
  rcases Percent.mem_encodeChars hm with (hc | hc) | ⟨hc, out⟩
  · exact absurd hc (by decide)
  · exact absurd hc (by decide)
  · rcases h with h | h
    · simp [h] at out
    · exact h hc

/-- Whatever stands for two dots means two dots. -/
theorem decodeBytes_of_isDotDot {segment : List Char} (h : isDotDot segment = true) :
    Percent.decodeBytes segment = Utf8.encodeChars ['.', '.'] := by
  have all : ∀ first ∈ dots, ∀ second ∈ dots,
      Percent.decodeBytes (first ++ second) = Utf8.encodeChars ['.', '.'] := by decide
  simp only [isDotDot, List.any_eq_true, decide_eq_true_eq] at h
  obtain ⟨first, hf, second, hs, rfl⟩ := h
  exact all first hf second hs

/-! ## Blanks -/

theorem withoutInnerBlanks_cons_of_blank {c : Char} (h : isInnerBlank c = true)
    (cs : List Char) : withoutInnerBlanks (c :: cs) = withoutInnerBlanks cs :=
  List.filter_cons_of_neg (by simp [h])

theorem withoutInnerBlanks_cons_of_visible {c : Char} (h : isInnerBlank c = false)
    (cs : List Char) : withoutInnerBlanks (c :: cs) = c :: withoutInnerBlanks cs :=
  List.filter_cons_of_pos (by simp [h])

theorem withoutInnerBlanks_eq_self {cs : List Char} (h : ∀ c ∈ cs, isInnerBlank c = false) :
    withoutInnerBlanks cs = cs :=
  List.filter_eq_self.mpr fun c hc => by simp [h c hc]

/-! ## Names -/

/-- Whether a name is left out as it stands. -/
def isLeftOut (name : String) : Bool := name = "." || name = ".."

/-- A name of two dots, with or without blanks among them. -/
def PointsUp (name : String) : Prop := withoutInnerBlanks name.toList = ['.', '.']

instance (name : String) : Decidable (PointsUp name) :=
  inferInstanceAs (Decidable (withoutInnerBlanks name.toList = ['.', '.']))

/-- The first of some names that is not left out. -/
def firstAdded? (names : List String) : Option String := names.find? (!isLeftOut ·)

/-- The set under which a name is written. -/
def nameSet (special : Bool) : Percent.Set :=
  if special then .specialPathSegment else .pathSegment

theorem nameSet_spec (special : Bool) :
    nameSet special '%' = true ∧ nameSet special '/' = true ∧ nameSet special '.' = false := by
  cases special <;> decide

/-- Only two dots are written as two dots: a percent sign never stays one. -/
theorem isDotDot_segmentOf (special : Bool) (name : String) :
    isDotDot (segmentOf special name) = true ↔ PointsUp name := by
  obtain ⟨percent, -, dot⟩ := nameSet_spec special
  constructor
  · intro h
    exact Percent.eq_of_decodeBytes_encodeChars percent (decodeBytes_of_isDotDot h)
  · intro h
    have plain : segmentOf special name = ['.', '.'] := by
      change Percent.encodeChars (nameSet special) _ = _
      rw [h]
      exact Percent.encodeChars_of_notMem (by simp [dot])
    rw [plain]
    decide

/-- What a name that does not lead up adds, if it is not left out. -/
theorem isPlace_segmentOf {special : Bool} {name : String} (up : ¬ PointsUp name)
    (dot : isDot (segmentOf special name) = false) : IsPlace (segmentOf special name) where
  slash_notMem := slash_notMem_encodeChars (Or.inl (nameSet_spec special).2.1)
  not_dot := dot
  not_dotDot := by
    rw [← Bool.not_eq_true, isDotDot_segmentOf]
    exact up

/-! ## One name more -/

/-- The segments that a name is added after: a path of one empty segment has none. -/
def floor (segments : List String) : List String := if segments = [""] then [] else segments

/-- The segments above. -/
def raised (segments : List String) : List String :=
  (shorten (segments.map String.toList)).map String.ofList

/-- The last segment is taken away, unless it is a drive letter. -/
theorem raised_concat (segments : List String) (last : String) :
    raised (segments ++ [last]) =
      if isDriveLetter last.toList then segments ++ [last] else segments := by
  rw [raised, shorten, List.map_append, List.map_singleton, List.getLast?_concat]
  dsimp only
  split
  · simp
  · simp

theorem raised_append {tail : List String} (h : tail ≠ []) (segments : List String) :
    raised (segments ++ tail) = segments ++ raised tail := by
  obtain ⟨front, last, rfl⟩ := (List.eq_nil_or_concat tail).resolve_left h
  rw [List.concat_eq_append, ← List.append_assoc, raised_concat, raised_concat]
  split <;> simp

theorem floor_of_ne {segments : List String} (h : segments ≠ [""]) : floor segments = segments :=
  if_neg h

variable {special : Bool} {segments base : List String} {name : String}

theorem extendOne_of_isLeftOut (h : isLeftOut name = true) :
    extendOne special segments name = segments := by
  rw [extendOne, if_pos (by simpa [isLeftOut] using h)]

theorem extendOne_of_pointsUp (h : isLeftOut name = false) (up : PointsUp name) :
    extendOne special segments name = raised (floor segments) ++ [""] := by
  rw [extendOne, if_neg (by simpa [isLeftOut] using h)]
  exact if_pos ((isDotDot_segmentOf special name).mpr up)

/-- A name that does not lead up adds a segment. -/
theorem extendOne_of_not_pointsUp (special : Bool) (segments : List String)
    (h : isLeftOut name = false) (up : ¬ PointsUp name) :
    ∃ segment : String, IsPlace segment.toList ∧
      extendOne special segments name = floor segments ++ [segment] := by
  have notDotDot : ¬ isDotDot (segmentOf special name) = true :=
    mt (isDotDot_segmentOf special name).mp up
  rw [extendOne, if_neg (by simpa [isLeftOut] using h)]
  dsimp only
  rw [if_neg notDotDot]
  by_cases dot : isDot (segmentOf special name) = true
  · exact ⟨"", isPlace_nil, if_pos dot⟩
  · refine ⟨String.ofList (segmentOf special name), ?_, if_neg dot⟩
    rw [String.toList_ofList]
    exact isPlace_segmentOf up (by simpa using dot)

/-! ## Staying below -/

/-- The segments that names are to stay below: all but an empty last one. -/
def stem (segments : List String) : List String :=
  if segments.getLast? = some "" then segments.dropLast else segments

/-- Segments of which the last one is not lost on the way up. -/
def Firm (base : List String) : Prop :=
  ∀ last, base.getLast? = some last → last = "" ∨ isDriveLetter last.toList = true

/-- A path that goes beyond a base. -/
def Beyond (base segments : List String) : Prop := ∃ tail, tail ≠ [] ∧ segments = base ++ tail

/-- A path that was led to from a base, to which the next name is added. -/
inductive Below (base segments : List String) : Prop where
  | here : floor segments = base → Below base segments
  | beyond : Beyond base segments → Below base segments

theorem Below.isPrefix (h : Below base segments) : base <+: segments := by
  cases h with
  | here h =>
    subst h
    unfold floor
    split
    · exact List.nil_prefix
    · exact List.prefix_refl _
  | beyond h =>
    obtain ⟨tail, -, rfl⟩ := h
    exact List.prefix_append base tail

theorem beyond_concat (base : List String) (segment : String) : Beyond base (base ++ [segment]) :=
  ⟨[segment], by simp, rfl⟩

/-- The path of one empty segment goes beyond the empty base only. -/
theorem Beyond.eq_nil {segment : String} (h : Beyond base [segment]) : base = [] := by
  obtain ⟨tail, hne, h⟩ := h
  have whole := congrArg List.length h
  have rest := List.length_pos_iff.mpr hne
  rw [List.length_append, List.length_singleton] at whole
  exact List.length_eq_zero_iff.mp (by omega)

/-- What is added to a path beyond a base is beyond it. -/
theorem Beyond.concat (h : Beyond base segments) (segment : String) :
    Beyond base (floor segments ++ [segment]) := by
  by_cases blank : segments = [""]
  · subst blank
    rw [h.eq_nil]
    exact beyond_concat [] segment
  · obtain ⟨tail, -, rfl⟩ := h
    exact ⟨tail ++ [segment], by simp, by rw [floor_of_ne blank, List.append_assoc]⟩

/-- From beyond a base the way up leads back to it at most. -/
theorem Beyond.raised (h : Beyond base segments) :
    Beyond base (raised (floor segments) ++ [""]) := by
  by_cases blank : segments = [""]
  · subst blank
    rw [h.eq_nil]
    exact beyond_concat [] ""
  · obtain ⟨tail, hne, rfl⟩ := h
    refine ⟨Path.raised tail ++ [""], by simp, ?_⟩
    rw [floor_of_ne blank, raised_append hne, List.append_assoc]

theorem Beyond.extendOne (h : Beyond base segments) (name : String) :
    Beyond base (extendOne special segments name) := by
  cases leftOut : isLeftOut name with
  | true => rwa [extendOne_of_isLeftOut leftOut]
  | false =>
    by_cases up : PointsUp name
    · rw [extendOne_of_pointsUp leftOut up]
      exact h.raised
    · obtain ⟨segment, -, he⟩ := extendOne_of_not_pointsUp special segments leftOut up
      rw [he]
      exact h.concat segment

/-- Beyond a base, names of any kind stay beyond it. -/
theorem Beyond.foldl (h : Beyond base segments) (names : List String) :
    Beyond base (names.foldl (Path.extendOne special) segments) := by
  induction names generalizing segments with
  | nil => exact h
  | cons name names ih => exact ih (h.extendOne name)

/-- From a firm base the way up leads nowhere. -/
theorem Firm.below_raised (firm : Firm base) (hb : base ≠ [""]) :
    Below base (Path.raised base ++ [""]) := by
  rcases List.eq_nil_or_concat base with rfl | ⟨front, last, rfl⟩
  · exact .beyond (beyond_concat [] "")
  · rw [List.concat_eq_append] at firm hb ⊢
    rw [raised_concat]
    by_cases drive : isDriveLetter last.toList = true
    · rw [if_pos drive]
      exact .beyond (beyond_concat _ "")
    · obtain rfl := (firm last List.getLast?_concat).resolve_right drive
      rw [if_neg drive]
      exact .here (floor_of_ne hb)

/-- Below a firm base, names of any kind stay below it. -/
theorem Below.foldl_of_firm (h : Below base segments) (firm : Firm base) (hb : base ≠ [""])
    (names : List String) : Below base (names.foldl (extendOne special) segments) := by
  induction names generalizing segments with
  | nil => exact h
  | cons name names ih =>
    apply ih
    cases h with
    | beyond h => exact .beyond (h.extendOne name)
    | here h =>
      cases leftOut : isLeftOut name with
      | true =>
        rw [extendOne_of_isLeftOut leftOut]
        exact .here h
      | false =>
        by_cases up : PointsUp name
        · rw [extendOne_of_pointsUp leftOut up, h]
          exact firm.below_raised hb
        · obtain ⟨segment, -, he⟩ := extendOne_of_not_pointsUp special segments leftOut up
          rw [he, h]
          exact .beyond (beyond_concat base segment)

/-- From any base, names of which the first that is added does not lead up stay below. -/
theorem below_foldl_of_first (h : floor segments = base) (names : List String)
    (first : ∀ name, firstAdded? names = some name → ¬ PointsUp name) :
    Below base (names.foldl (extendOne special) segments) := by
  induction names with
  | nil => exact .here h
  | cons name names ih =>
    rw [List.foldl_cons]
    cases leftOut : isLeftOut name with
    | true =>
      rw [extendOne_of_isLeftOut leftOut]
      exact ih fun n hn => first n (by simpa [firstAdded?, leftOut] using hn)
    | false =>
      have up : ¬ PointsUp name := first name (by simp [firstAdded?, leftOut])
      obtain ⟨segment, -, he⟩ := extendOne_of_not_pointsUp special segments leftOut up
      rw [he, h]
      exact .beyond ((beyond_concat base segment).foldl names)

/-! ## Names below a whole path -/

/-- Names are added after the stem, except to a path of two slashes. -/
theorem floor_openEnd (h : segments ≠ ["", ""]) : floor (openEnd segments) = stem segments := by
  unfold openEnd stem
  by_cases blank : segments.getLast? = some ""
  · obtain ⟨front, rfl⟩ := List.getLast?_eq_some_iff.mp blank
    cases front with
    | nil => rfl
    | cons s front =>
      have long : 1 < (s :: front ++ [""]).length := by simp
      have ne : s :: front ≠ [""] := fun he => h (by rw [he]; rfl)
      rw [if_pos ⟨blank, long⟩, if_pos blank, List.dropLast_concat, floor_of_ne ne]
  · rw [if_neg fun he => blank he.1, if_neg blank]
    exact floor_of_ne fun he => blank (by rw [he]; rfl)

theorem stem_ne (h : segments ≠ ["", ""]) : stem segments ≠ [""] := by
  unfold stem
  split
  · rename_i blank
    obtain ⟨front, rfl⟩ := List.getLast?_eq_some_iff.mp blank
    rw [List.dropLast_concat]
    exact fun he => h (by rw [he]; rfl)
  · rename_i full
    exact fun he => full (by rw [he]; rfl)

/-- Names that stay below a path: the stem is firm, or the first name that is added does not lead
up.  A path of two slashes counts as one of one, so what it was is not kept. -/
structure Within (segments names : List String) : Prop where
  not_slashes : segments ≠ ["", ""]
  firm_or_first : Firm (stem segments) ∨ ∀ name, firstAdded? names = some name → ¬ PointsUp name

theorem stem_prefix_extend {names : List String} (h : Within segments names) :
    stem segments <+: extend special segments names := by
  have start := floor_openEnd h.not_slashes
  rcases h.firm_or_first with firm | first
  · exact ((Below.here start).foldl_of_firm firm (stem_ne h.not_slashes) names).isPrefix
  · exact (below_foldl_of_first start names first).isPrefix

theorem foldl_of_isLeftOut {names : List String} (h : ∀ name ∈ names, isLeftOut name = true) :
    names.foldl (extendOne special) segments = segments := by
  induction names with
  | nil => rfl
  | cons name names ih =>
    rw [List.foldl_cons, extendOne_of_isLeftOut (h name (by simp))]
    exact ih fun n hn => h n (by simp [hn])

/-- If the first name that is added leads up, the rest is added after the segments above. -/
theorem exists_extend_eq (special : Bool) (h : segments ≠ ["", ""]) {names : List String}
    {name : String} (first : firstAdded? names = some name) (up : PointsUp name) :
    ∃ rest : List String, extend special segments names =
      rest.foldl (extendOne special) (raised (stem segments) ++ [""]) := by
  obtain ⟨added, skipped, rest, rfl, leftOut⟩ := List.find?_eq_some_iff_append.mp first
  have gone : ∀ n ∈ skipped, isLeftOut n = true := by simpa using leftOut
  refine ⟨rest, ?_⟩
  rw [extend, List.foldl_append, foldl_of_isLeftOut gone, List.foldl_cons,
    extendOne_of_pointsUp (by simpa using added) up, floor_openEnd h]

/-- The last of segments that are not firm is lost on the way up. -/
theorem exists_concat_of_not_firm (h : ¬ Firm base) :
    ∃ front last, base = front ++ [last] ∧ last ≠ "" ∧ raised base = front := by
  rcases List.eq_nil_or_concat base with rfl | ⟨front, last, rfl⟩
  · exact absurd (fun last hl => by simp at hl) h
  rw [List.concat_eq_append] at h ⊢
  obtain ⟨full, noDrive⟩ : last ≠ "" ∧ ¬ isDriveLetter last.toList = true := by
    by_contra no
    refine h fun l hl => ?_
    obtain rfl : last = l := by simpa using hl
    by_cases blank : last = ""
    · exact Or.inl blank
    · exact Or.inr (by_contra fun drive => no ⟨blank, drive⟩)
  exact ⟨front, last, rfl, full, by rw [raised_concat, if_neg noDrive]⟩

/-- What is left open stays below the segments before it, unless it is the whole path. -/
theorem concat_blank_prefix_foldl (special : Bool) (h : segments ≠ []) (names : List String) :
    segments ++ [""] <+: names.foldl (extendOne special) (segments ++ [""]) := by
  have hne : segments ++ [""] ≠ [""] := by simpa using h
  have firm : Firm (segments ++ [""]) := fun last hl => Or.inl (by simpa using hl.symm)
  exact ((Below.here (floor_of_ne hne)).foldl_of_firm firm hne names).isPrefix

/-- Names that do not stay below a path lead to the directory above it first. -/
theorem exists_extend_of_not_within (special : Bool) {names : List String}
    (h : segments ≠ ["", ""]) (leave : ¬ Within segments names) :
    ∃ (front : List String) (last : String) (rest : List String), stem segments = front ++ [last] ∧
      last ≠ "" ∧ extend special segments names =
        rest.foldl (extendOne special) (front ++ [""]) := by
  obtain ⟨firm, first⟩ : ¬ Firm (stem segments) ∧
      ¬ ∀ name, firstAdded? names = some name → ¬ PointsUp name :=
    not_or.mp fun stay => leave ⟨h, stay⟩
  simp only [not_forall, not_not] at first
  obtain ⟨name, first, up⟩ := first
  obtain ⟨rest, he⟩ := exists_extend_eq special h first up
  obtain ⟨front, last, hs, full, hr⟩ := exists_concat_of_not_firm firm
  exact ⟨front, last, rest, hs, full, by rw [he, hr]⟩

/-- If names do not stay below a path, the last segment of the stem is lost. -/
theorem within_of_stem_prefix_extend {names : List String} (long : 1 < (stem segments).length)
    (below : stem segments <+: extend special segments names) : Within segments names := by
  have notSlashes : segments ≠ ["", ""] := by
    rintro rfl
    exact absurd long (by decide)
  by_contra leave
  obtain ⟨front, last, rest, hs, full, he⟩ :=
    exists_extend_of_not_within special notSlashes leave
  rw [he, hs] at below
  rw [hs] at long
  have above : front ≠ [] := by
    rintro rfl
    simp at long
  -- An empty segment stands where the last segment was.
  have blank := concat_blank_prefix_foldl special above rest
  have same := (List.prefix_of_prefix_length_le below blank (by simp)).eq_of_length (by simp)
  exact full (by simpa using same)

/-- No more than the last segment of the stem is lost. -/
theorem dropLast_stem_prefix_extend (h : segments ≠ ["", ""]) (names : List String) :
    (stem segments).dropLast <+: extend special segments names := by
  by_cases stay : Within segments names
  · exact (List.dropLast_prefix _).trans (stem_prefix_extend stay)
  · obtain ⟨front, last, rest, hs, -, he⟩ := exists_extend_of_not_within special h stay
    rw [he, hs, List.dropLast_concat]
    by_cases none : front = []
    · rw [none]
      exact List.nil_prefix
    · exact (List.prefix_append _ _).trans (concat_blank_prefix_foldl special none rest)

/-- Two slashes count as one. -/
theorem extend_slashes (names : List String) :
    extend special ["", ""] names = extend special [""] names := rfl

/-! ## No segment is a direction -/

theorem isPlace_raised {segments : List String} (h : ∀ s ∈ segments, IsPlace s.toList) :
    ∀ s ∈ raised segments, IsPlace s.toList := by
  rcases List.eq_nil_or_concat segments with rfl | ⟨front, last, rfl⟩
  · exact h
  · rw [List.concat_eq_append] at h ⊢
    rw [raised_concat]
    split
    · exact h
    · exact fun s hs => h s (List.mem_append_left _ hs)

theorem isPlace_floor (h : ∀ s ∈ segments, IsPlace s.toList) :
    ∀ s ∈ floor segments, IsPlace s.toList := by
  unfold floor
  split
  · simp
  · exact h

theorem isPlace_concat (h : ∀ s ∈ segments, IsPlace s.toList) {segment : String}
    (hs : IsPlace segment.toList) : ∀ s ∈ segments ++ [segment], IsPlace s.toList := by
  intro s hm
  rcases List.mem_append.mp hm with hm | hm
  · exact h s hm
  · obtain rfl := List.mem_singleton.mp hm
    exact hs

theorem isPlace_extendOne (h : ∀ s ∈ segments, IsPlace s.toList) (name : String) :
    ∀ s ∈ extendOne special segments name, IsPlace s.toList := by
  cases leftOut : isLeftOut name with
  | true => rwa [extendOne_of_isLeftOut leftOut]
  | false =>
    by_cases up : PointsUp name
    · rw [extendOne_of_pointsUp leftOut up]
      exact isPlace_concat (isPlace_raised (isPlace_floor h)) isPlace_nil
    · obtain ⟨segment, place, he⟩ := extendOne_of_not_pointsUp special segments leftOut up
      rw [he]
      exact isPlace_concat (isPlace_floor h) place

/-- Names that are added to a path without directions leave none. -/
theorem isPlace_extend (h : ∀ s ∈ segments, IsPlace s.toList) (names : List String) :
    ∀ s ∈ extend special segments names, IsPlace s.toList := by
  have opened : ∀ s ∈ openEnd segments, IsPlace s.toList := by
    unfold openEnd
    split
    · exact fun s hs => h s (List.mem_of_mem_dropLast hs)
    · exact h
  rw [extend]
  generalize openEnd segments = list at opened
  induction names generalizing list with
  | nil => exact opened
  | cons name names ih => exact ih _ (isPlace_extendOne opened name)

theorem isPlace_shorten {above : List (List Char)} (h : ∀ s ∈ above, IsPlace s) :
    ∀ s ∈ shorten above, IsPlace s := by
  unfold shorten
  split
  · simp
  · split
    · exact h
    · exact fun s hs => h s (List.mem_of_mem_dropLast hs)

/-- Following segments leaves no direction among them. -/
theorem isPlace_resolveFrom {above raw : List (List Char)} (ha : ∀ s ∈ above, IsPlace s)
    (hr : ∀ s ∈ raw, '/' ∉ s) : ∀ s ∈ resolveFrom above raw, IsPlace s := by
  have add {above : List (List Char)} (ha : ∀ s ∈ above, IsPlace s) {segment : List Char}
      (place : IsPlace segment) : ∀ s ∈ above ++ [segment], IsPlace s := by
    intro s hs
    rcases List.mem_append.mp hs with hs | hs
    · exact ha s hs
    · obtain rfl := List.mem_singleton.mp hs
      exact place
  fun_induction resolveFrom above raw with
  | case1 above => exact add ha isPlace_nil
  | case2 above last up => exact add (isPlace_shorten ha) isPlace_nil
  | case3 above last up dot => exact add ha isPlace_nil
  | case4 above last up dot =>
    exact add ha ⟨hr last (by simp), by simpa using dot, by simpa using up⟩
  | case5 above segment rest _ up ih =>
    exact ih (isPlace_shorten ha) fun s hs => hr s (by simp [hs])
  | case6 above segment rest _ up dot ih => exact ih ha fun s hs => hr s (by simp [hs])
  | case7 above segment rest _ up dot ih =>
    exact ih (add ha ⟨hr segment (by simp), by simpa using dot, by simpa using up⟩)
      fun s hs => hr s (by simp [hs])

end InstallMedia.Url.Path
