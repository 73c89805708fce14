import InstallMedia.Proofs.Text.Split
import InstallMedia.Proofs.Url.Path
import InstallMedia.Url.Reader
import Mathlib.Data.List.Forall2

/-!
# Plain names below a path

A name that is no direction and has no blank in it is added to a path as one segment, which means
the bytes of the name and has no character that an address reads as anything but text.  No two paths
of segments are written alike.

## Main definitions

* `Url.Path.IsPlain`: a name that is no direction and has no blank
* `Url.Path.Spells`: a segment that means a name and is nothing but a segment

## Main results

* `Url.Path.spells_segmentOf`, `Url.Path.extend_of_isPlain`: plain names are added as they are
* `Url.Path.Spells.eq`, `Url.Path.eq_of_joined_eq`: segments and paths can be read back
-/

namespace InstallMedia.Url.Path

/-! ## One name -/

/-- A name that is no direction and has no tab or line end in it. -/
structure IsPlain (name : String) : Prop where
  not_leftOut : isLeftOut name = false
  no_blank : ∀ c ∈ name.toList, isInnerBlank c = false

/-- A segment that means a name, byte by byte, and that is nothing but a segment. -/
structure Spells (special : Bool) (name segment : String) : Prop where
  bytes : Percent.decodeBytes segment.toList = Utf8.encode name
  no_separator : ∀ c ∈ segment.toList, isSeparator special c = false
  no_end : ∀ c ∈ segment.toList, endsPath c = false

variable {special : Bool} {name : String}

/-- No two names are written as the same segment. -/
theorem Spells.eq {name' segment : String} (h : Spells special name segment)
    (h' : Spells special name' segment) : name = name' :=
  String.toList_injective (Utf8.encodeChars_injective (h.bytes.symm.trans h'.bytes))

/-- No two lists of names are written as the same segments. -/
theorem eq_of_forall₂_spells {names names' segments : List String}
    (h : List.Forall₂ (Spells special) names segments)
    (h' : List.Forall₂ (Spells special) names' segments) : names = names' :=
  List.left_unique_forall₂' (fun _ _ _ spells spells' => spells.eq spells') h h'

/-- Only the empty name is written as an empty segment. -/
theorem Spells.eq_empty (h : Spells special name "") : name = "" :=
  h.eq ⟨rfl, by simp, by simp⟩

/-- A character that ends a segment or a path is escaped in a name, and is not what escapes are
made of. -/
theorem escaped_of_isSyntax {c : Char} (h : isSeparator special c = true ∨ endsPath c = true) :
    nameSet special c = true ∧ c ≠ '%' ∧ c.isAlphanum = false := by
  simp only [isSeparator, endsPath, Bool.or_eq_true, Bool.and_eq_true, decide_eq_true_eq] at h
  rcases h with (rfl | ⟨rfl, rfl⟩) | rfl | rfl
  · exact ⟨(nameSet_spec special).2.1, by decide, by decide⟩
  · decide
  · cases special <;> decide
  · cases special <;> decide

/-- What is put down for a name ends neither a segment nor a path. -/
theorem not_isSyntax_of_mem {c : Char} (h : c ∈ segmentOf special name) :
    ¬ (isSeparator special c = true ∨ endsPath c = true) := by
  intro ends
  obtain ⟨inSet, notPercent, notLetter⟩ := escaped_of_isSyntax ends
  rcases Percent.mem_encodeChars h with (percent | letter) | ⟨-, out⟩
  · exact notPercent percent
  · exact absurd (notLetter.symm.trans letter) (by decide)
  · exact absurd (inSet.symm.trans out) (by decide)

theorem IsPlain.withoutInnerBlanks (h : IsPlain name) :
    withoutInnerBlanks name.toList = name.toList :=
  withoutInnerBlanks_eq_self h.no_blank

/-- A plain name is written as it is. -/
theorem spells_segmentOf (special : Bool) (h : IsPlain name) :
    Spells special name (String.ofList (segmentOf special name)) where
  bytes := by
    have percent : nameSet special '%' = true := (nameSet_spec special).1
    have read := Percent.decodeBytes_encodeChars percent (withoutInnerBlanks name.toList)
    rw [String.toList_ofList, Utf8.encode, ← h.withoutInnerBlanks]
    exact read
  no_separator := by
    rw [String.toList_ofList]
    exact fun c hc => by simpa using mt Or.inl (not_isSyntax_of_mem hc)
  no_end := by
    rw [String.toList_ofList]
    exact fun c hc => by simpa using mt Or.inr (not_isSyntax_of_mem hc)

/-- Whatever stands for a dot means a dot. -/
theorem decodeBytes_of_isDot {segment : List Char} (h : isDot segment = true) :
    Percent.decodeBytes segment = Utf8.encodeChars ['.'] := by
  have all : ∀ dot ∈ dots, Percent.decodeBytes dot = Utf8.encodeChars ['.'] := by decide
  exact all segment (by simpa [isDot] using h)

/-- A name that is written as a direction is left out as it stands. -/
theorem IsPlain.not_direction (special : Bool) (h : IsPlain name) :
    isDot (segmentOf special name) = false ∧ isDotDot (segmentOf special name) = false := by
  have bytes := (spells_segmentOf special h).bytes
  rw [String.toList_ofList] at bytes
  have other : ∀ direction : String, isLeftOut direction = true →
      Percent.decodeBytes (segmentOf special name) ≠ Utf8.encode direction := by
    rintro direction leftOut same
    have chars := Utf8.encodeChars_injective (bytes.symm.trans same)
    rw [← String.toList_injective chars, h.not_leftOut] at leftOut
    exact Bool.false_ne_true leftOut
  constructor
  · exact Bool.eq_false_iff.mpr fun dot => other "." rfl (decodeBytes_of_isDot dot)
  · exact Bool.eq_false_iff.mpr fun dotDot => other ".." rfl (decodeBytes_of_isDotDot dotDot)

/-! ## Names below a path -/

variable {segments names : List String}

theorem forall₂_spells (special : Bool) (plain : ∀ name ∈ names, IsPlain name) :
    List.Forall₂ (Spells special) names
      (names.map fun name => String.ofList (segmentOf special name)) := by
  rw [List.forall₂_map_right_iff, List.forall₂_same]
  exact fun name hn => spells_segmentOf special (plain name hn)

theorem extendOne_of_isPlain (h : IsPlain name) :
    extendOne special segments name =
      floor segments ++ [String.ofList (segmentOf special name)] := by
  obtain ⟨dot, dotDot⟩ := h.not_direction special
  rw [extendOne, if_neg (by simpa [isLeftOut] using h.not_leftOut)]
  dsimp only
  rw [if_neg (by simp [dotDot]), if_neg (by simp [dot])]
  rfl

/-- Plain names are added to segments of which none is taken for an open end. -/
theorem foldl_of_isPlain (h : ¬ segments <+: [""]) (plain : ∀ name ∈ names, IsPlain name) :
    names.foldl (extendOne special) segments =
      segments ++ names.map fun name => String.ofList (segmentOf special name) := by
  induction names generalizing segments with
  | nil => simp
  | cons name names ih =>
    obtain ⟨first, more⟩ := List.forall_mem_cons.mp plain
    have whole : floor segments = segments := floor_of_ne fun he => h (by rw [he])
    rw [List.foldl_cons, extendOne_of_isPlain first, whole,
      ih (mt (List.prefix_append _ _).trans h) more, List.append_assoc]
    rfl

/-- Names of which the first is empty only if it is the last. -/
def Led : List String → Prop
  | [] => False
  | first :: rest => first = "" → rest = []

/-- Plain names are added below a path one by one, except below two slashes. -/
theorem extend_of_isPlain (special : Bool) (h : segments ≠ ["", ""]) (led : Led names)
    (plain : ∀ name ∈ names, IsPlain name) :
    extend special segments names =
      stem segments ++ names.map fun name => String.ofList (segmentOf special name) := by
  cases names with
  | nil => exact led.elim
  | cons first rest =>
    obtain ⟨hf, more⟩ := List.forall_mem_cons.mp plain
    rw [extend, List.foldl_cons, extendOne_of_isPlain hf, floor_openEnd h, List.map_cons]
    by_cases blank : first = ""
    · rw [led blank]
      rfl
    · have open_end : ¬ stem segments ++ [String.ofList (segmentOf special first)] <+: [""] := by
        intro blanks
        have empty : String.ofList (segmentOf special first) = "" :=
          List.mem_singleton.mp (blanks.subset (by simp))
        exact blank (empty ▸ spells_segmentOf special hf).eq_empty
      rw [foldl_of_isPlain open_end more, List.append_assoc]
      rfl

/-! ## Paths as texts -/

theorem toList_joined (list : List String) :
    (joined list).toList = (list.map String.toList).flatMap ('/' :: ·) := by
  simp [joined, String.toList_join, List.flatMap_map]

/-- Paths of segments that are written alike are one path. -/
theorem eq_of_joined_eq {list list' : List String} (h : ∀ s ∈ list, '/' ∉ s.toList)
    (h' : ∀ s ∈ list', '/' ∉ s.toList) (same : joined list = joined list') : list = list' := by
  have fields : ∀ list : List String, (∀ s ∈ list, '/' ∉ s.toList) →
      Split.fields (· = '/') (joined list).toList = [] :: list.map String.toList := by
    intro list h
    rw [toList_joined]
    refine Split.fields_flatMap_cons (by simp) fun field hf d hd => ?_
    obtain ⟨s, hs, rfl⟩ := List.mem_map.mp hf
    exact decide_eq_false fun he => h s hs (he ▸ hd)
  have tails : list.map String.toList = list'.map String.toList := by
    have := fields list h
    rw [same, fields list' h'] at this
    exact (List.tail_eq_of_cons_eq this).symm
  exact List.map_injective_iff.mpr (fun _ _ he => String.toList_injective he) tails

end InstallMedia.Url.Path
