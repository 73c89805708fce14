import InstallMedia.Proofs.Attempt
import InstallMedia.Proofs.Text.Split
import InstallMedia.Proofs.Url.Path
import InstallMedia.Url.Reader

/-!
# The scheme that an address is read under

The scheme of an address is what stands before its first colon, if that begins with a letter.  Tabs
and line ends among its characters are left out, and letters of either case are the same.  Whatever
comes after the colon, an address that can be read is one of that scheme.

## Main definitions

* `Url.SpellsScheme`: characters that are read as a scheme

## Main results

* `Url.scheme?_eq_some_iff`: what is read as the scheme of a text
* `Url.scheme_of_parse`: the scheme of an address that is read
-/

namespace InstallMedia.Url

/-- Characters that are read as a scheme: a letter, and then what may stand in a scheme or is left
out. -/
structure SpellsScheme (written : List Char) (scheme : String) : Prop where
  letter : (written.head?.map Char.isAlpha).getD false = true
  chars : ∀ c ∈ written, Path.isInnerBlank c = true ∨ isSchemeChar c = true
  name : String.ofList ((Path.withoutInnerBlanks written).map Char.toLower) = scheme

/-! ## Reading a scheme -/

variable {scheme : String} {cs rest : List Char}

theorem schemeTail?_cons {c : Char} (h : c ≠ ':') (cs : List Char) :
    schemeTail? (c :: cs) =
      if Path.isInnerBlank c then schemeTail? cs
      else if isSchemeChar c then
        (schemeTail? cs).map fun (scheme, rest) => (c.toLower :: scheme, rest)
      else none := by
  rw [schemeTail?]
  exact fun hc => h hc

theorem isInnerBlank_of_isSchemeChar {c : Char} (h : isSchemeChar c = true) :
    Path.isInnerBlank c = false := by
  refine Bool.eq_false_iff.mpr fun blank => ?_
  simp only [Path.isInnerBlank, Bool.or_eq_true, decide_eq_true_eq] at blank
  rcases blank with (rfl | rfl) | rfl <;> exact absurd h (by decide)

/-- The colon that ends a scheme is not part of it. -/
theorem ne_colon_of_mem_scheme {c : Char}
    (h : Path.isInnerBlank c = true ∨ isSchemeChar c = true) : c ≠ ':' := by
  rintro rfl
  exact absurd h (by decide)

/-- Blanks are passed over, and all else before a colon is taken in small letters. -/
theorem schemeTail?_append {written : List Char}
    (chars : ∀ c ∈ written, Path.isInnerBlank c = true ∨ isSchemeChar c = true)
    (rest : List Char) :
    schemeTail? (written ++ ':' :: rest) =
      some ((Path.withoutInnerBlanks written).map Char.toLower, rest) := by
  induction written with
  | nil => rfl
  | cons c written ih =>
    obtain ⟨here, more⟩ := List.forall_mem_cons.mp chars
    rw [List.cons_append, schemeTail?_cons (ne_colon_of_mem_scheme here), ih more]
    cases blank : Path.isInnerBlank c with
    | true => rw [if_pos rfl, Path.withoutInnerBlanks_cons_of_blank blank]
    | false =>
      have letter : isSchemeChar c = true := here.resolve_left (by simp [blank])
      rw [if_neg (by simp), if_pos letter, Path.withoutInnerBlanks_cons_of_visible blank]
      rfl

/-- A scheme is read up to the first colon, if nothing before it is out of place. -/
theorem schemeTail?_eq_some_iff {name : List Char} :
    schemeTail? cs = some (name, rest) ↔
      ∃ written, cs = written ++ ':' :: rest ∧
        (∀ c ∈ written, Path.isInnerBlank c = true ∨ isSchemeChar c = true) ∧
        (Path.withoutInnerBlanks written).map Char.toLower = name := by
  constructor
  · intro h
    -- Each character is the colon, a blank that is left out, or the next of the scheme.
    induction cs generalizing name with
    | nil => cases h
    | cons c cs ih =>
      by_cases colon : c = ':'
      · subst colon
        obtain ⟨rfl, rfl⟩ : [] = name ∧ cs = rest := by simpa [schemeTail?] using h
        exact ⟨[], rfl, by simp, rfl⟩
      rw [schemeTail?_cons colon] at h
      split at h
      · rename_i blank
        obtain ⟨written, rfl, chars, rfl⟩ := ih h
        refine ⟨c :: written, rfl, List.forall_mem_cons.mpr ⟨.inl blank, chars⟩, ?_⟩
        rw [Path.withoutInnerBlanks_cons_of_blank blank]
      · rename_i visible
        split at h
        · rename_i letter
          obtain ⟨⟨name', rest'⟩, tail, same⟩ := Option.map_eq_some_iff.mp h
          obtain ⟨rfl, rfl⟩ : c.toLower :: name' = name ∧ rest' = rest := by simpa using same
          obtain ⟨written, rfl, chars, rfl⟩ := ih tail
          refine ⟨c :: written, rfl, List.forall_mem_cons.mpr ⟨.inr letter, chars⟩, ?_⟩
          rw [Path.withoutInnerBlanks_cons_of_visible (by simpa using visible), List.map_cons]
        · cases h
  · rintro ⟨written, rfl, chars, rfl⟩
    exact schemeTail?_append chars rest

/-- The scheme of a text is spelled before its first colon. -/
theorem scheme?_eq_some_iff :
    scheme? cs = some (scheme, rest) ↔
      ∃ written, cs = written ++ ':' :: rest ∧ SpellsScheme written scheme := by
  constructor
  · intro h
    cases cs with
    | nil => cases h
    | cons c cs =>
      rw [scheme?] at h
      split at h
      · rename_i letter
        obtain ⟨⟨name, tail⟩, read, same⟩ := Option.map_eq_some_iff.mp h
        obtain ⟨rfl, rfl⟩ : String.ofList name = scheme ∧ tail = rest := by simpa using same
        obtain ⟨written, whole, chars, rfl⟩ := schemeTail?_eq_some_iff.mp read
        refine ⟨written, whole, ?_, chars, rfl⟩
        cases written with
        | nil =>
          -- Then the letter would be the colon.
          obtain ⟨rfl, -⟩ := List.cons.inj whole
          cases letter
        | cons d written =>
          obtain ⟨rfl, -⟩ := List.cons.inj whole
          exact letter
      · cases h
  · rintro ⟨written, rfl, letter, chars, rfl⟩
    cases written with
    | nil => cases letter
    | cons c written =>
      have first : c.isAlpha = true := letter
      rw [List.cons_append, scheme?, if_pos first, ← List.cons_append, schemeTail?_append chars]
      rfl

/-- What spells a scheme is all that stands before the first colon. -/
theorem SpellsScheme.takeWhile_append {written : List Char} (h : SpellsScheme written scheme)
    (rest : List Char) : (written ++ ':' :: rest).takeWhile (· ≠ ':') = written := by
  rw [List.takeWhile_append_of_pos fun c hc => by simpa using ne_colon_of_mem_scheme (h.chars c hc)]
  simp

theorem isOuterBlank_of_isAlpha {c : Char} (h : c.isAlpha = true) : isOuterBlank c = false := by
  -- Letters come after the blank.
  have number : 0x20 < c.toNat := by
    rcases (Bool.or_eq_true c.isUpper c.isLower).mp h with upper | lower
    · have low : 'A'.val ≤ c.val := (of_decide_eq_true upper).1
      exact Nat.lt_of_lt_of_le (by decide) (UInt32.le_iff_toNat_le.mp low)
    · have low : 'a'.val ≤ c.val := of_decide_eq_true (Bool.and_eq_true_iff.mp lower).1
      exact Nat.lt_of_lt_of_le (by decide) (UInt32.le_iff_toNat_le.mp low)
  exact decide_eq_false (Nat.not_le.mpr number)

/-- A scheme that stands at the beginning of a text is found without the blanks at its ends. -/
theorem scheme?_trimmed {s : String} (h : scheme? s.toList = some (scheme, rest)) :
    ∃ rest', scheme? (trimmed s) = some (scheme, rest') := by
  obtain ⟨written, whole, spells⟩ := scheme?_eq_some_iff.mp h
  have front : s.toList.dropWhile isOuterBlank = s.toList := by
    rw [whole]
    cases written with
    | nil => cases spells.letter
    | cons c written =>
      exact List.dropWhile_cons_of_neg (by simp [isOuterBlank_of_isAlpha spells.letter])
  -- Trimming stops at the colon, if not before.
  refine ⟨Split.trimEnd isOuterBlank rest, scheme?_eq_some_iff.mpr ⟨written, ?_, spells⟩⟩
  rw [trimmed, Split.trim, front, whole]
  exact Split.trimEnd_append_cons (by decide) written rest

/-! ## The scheme of what is read -/

variable {url : Url}

theorem scheme_withDrivePath (host : Option Host) (cs : List Char) :
    (withDrivePath host cs).scheme = "file" := rfl

theorem scheme_of_readFileHost [InternationalNames] (h : readFileHost cs = .ok url) :
    url.scheme = "file" := by
  unfold readFileHost at h
  dsimp only at h
  split at h
  · obtain rfl := Except.ok.inj h
    exact scheme_withDrivePath _ _
  · split at h
    · obtain rfl := Except.ok.inj h
      exact scheme_withDrivePath _ _
    · obtain ⟨host, -, h⟩ := bind_eq_ok_iff.mp h
      split at h
      · obtain rfl := Except.ok.inj h
        exact scheme_withDrivePath _ _
      · obtain rfl := Except.ok.inj h
        exact scheme_withDrivePath _ _

theorem scheme_of_readFile [InternationalNames] (h : readFile cs = .ok url) :
    url.scheme = "file" := by
  unfold readFile at h
  split at h
  · obtain rfl := Except.ok.inj h
    exact scheme_withDrivePath _ _
  · split at h
    · obtain rfl := Except.ok.inj h
      exact scheme_withDrivePath _ _
    · exact scheme_of_readFileHost h

theorem scheme_of_readOther [InternationalNames] (h : readOther scheme cs = .ok url) :
    url.scheme = scheme := by
  unfold readOther at h
  split at h
  · obtain ⟨⟨authority, after⟩, -, h⟩ := bind_eq_ok_iff.mp h
    obtain rfl := Except.ok.inj h
    rfl
  · split at h
    · obtain ⟨⟨authority, after⟩, -, h⟩ := bind_eq_ok_iff.mp h
      obtain rfl := Except.ok.inj h
      rfl
    · obtain rfl := Except.ok.inj h
      rfl
    · obtain rfl := Except.ok.inj h
      rfl

theorem scheme_of_readAfterScheme [InternationalNames] (h : readAfterScheme scheme cs = .ok url) :
    url.scheme = scheme := by
  unfold readAfterScheme at h
  split at h
  · rename_i file
    exact (scheme_of_readFile h).trans file.symm
  · exact scheme_of_readOther h

/-- An address is read under the scheme that its text begins with, but for blanks. -/
theorem scheme_of_parse [InternationalNames] {s : String} (h : parse s = .ok url) :
    ∃ rest, scheme? (trimmed s) = some (url.scheme, rest) := by
  unfold parse at h
  split at h
  · cases h
  · rename_i rest found
    obtain rfl := scheme_of_readAfterScheme h
    exact ⟨rest, found⟩

end InstallMedia.Url
