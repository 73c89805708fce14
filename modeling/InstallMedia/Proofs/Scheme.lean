import InstallMedia.Proofs.Attempt
import InstallMedia.Proofs.Text.Split
import InstallMedia.Proofs.Url.Scheme
import InstallMedia.Scheme
import Mathlib

/-!
# Schemes before addresses

The scheme of an address is what stands before the first `://`, and letters of either case say the
same.  It is the scheme that the address is read under, if it can be read.  To take the scheme away
asks for more: it has to be written in small letters.

## Main definitions

* `Scheme.Begins`: an address of a known scheme, taken apart

## Main results

* `Scheme.schemeOf?_eq_some_iff_scheme?`: the scheme of a text, and what a reader of addresses finds
* `Scheme.scheme_eq_of_parse`: the scheme of a text that can be read
* `Scheme.ofAddress_eq_ok_iff`, `Scheme.ofAddress_eq_error`: what has a known scheme
* `Scheme.Begins.stripScheme_eq`: what is left without it
-/

namespace InstallMedia.Scheme

/-! ## Letters -/

/-- Letters that were made small stay as they are. -/
theorem map_toLower_ofList (cs : List Char) :
    (String.ofList (cs.map Char.toLower)).map Char.toLower =
      String.ofList (cs.map Char.toLower) := by
  apply String.toList_inj.mp
  simp

/-! ## Names -/

theorem mem_all (known : Scheme) : known ∈ all := by
  cases known <;> decide

theorem name_injective {known other : Scheme} (h : known.name = other.name) : known = other := by
  revert h
  cases known <;> cases other <;> decide

/-- A text is read as the scheme that it names, in letters of either case. -/
theorem parse_eq_ok_iff {s : String} {known : Scheme} :
    parse s = .ok known ↔ known.name = s.map Char.toLower := by
  constructor
  · intro h
    unfold parse at h
    split at h
    · rename_i found hf
      obtain rfl := Except.ok.inj h
      simpa using List.find?_some hf
    · cases h
  · intro h
    unfold parse
    split
    · rename_i found hf
      have named : found.name = s.map Char.toLower := by simpa using List.find?_some hf
      rw [name_injective (named.trans h.symm)]
    · rename_i none
      exact absurd h (by simpa using List.find?_eq_none.mp none known (mem_all known))

theorem parse_eq_error {s : String} {e : SourceError} (h : parse s = .error e) :
    e = .unsupportedScheme s := by
  unfold parse at h
  split at h
  · cases h
  · exact (Except.error.inj h).symm

/-! ## Addresses -/

/-- An address of a known scheme, taken apart at its first `://`. -/
structure Begins (known : Scheme) (address : String) (scheme rest : List Char) : Prop where
  split : Split.IsFirst Address.schemeMark address.toList scheme rest
  isScheme : Address.isScheme scheme = true
  name : String.ofList (scheme.map Char.toLower) = known.name

theorem schemeOf?_eq_some_iff {address name : String} :
    Address.schemeOf? address = some name ↔
      ∃ scheme rest, Split.IsFirst Address.schemeMark address.toList scheme rest ∧
        Address.isScheme scheme = true ∧ String.ofList (scheme.map Char.toLower) = name := by
  unfold Address.schemeOf?
  constructor
  · intro h
    obtain ⟨⟨scheme, rest⟩, split, h⟩ := Option.bind_eq_some_iff.mp h
    dsimp only at h
    by_cases ok : Address.isScheme scheme = true
    · rw [if_pos ok] at h
      exact ⟨scheme, rest, Split.around?_eq_some_iff.mp split, ok, Option.some.inj h⟩
    · rw [if_neg ok] at h
      cases h
  · rintro ⟨scheme, rest, split, ok, rfl⟩
    refine Option.bind_eq_some_iff.mpr ⟨(scheme, rest), Split.around?_eq_some_iff.mpr split, ?_⟩
    exact if_pos ok

/-! ## Schemes and readers of addresses -/

/-- A scheme is spelled without blanks. -/
theorem isScheme_iff {written : List Char} {name : String} :
    Address.isScheme written = true ∧ String.ofList (written.map Char.toLower) = name ↔
      Url.SpellsScheme written name ∧ ∀ c ∈ written, Url.Path.isInnerBlank c = false := by
  constructor
  · rintro ⟨ok, named⟩
    obtain ⟨letter, chars⟩ := Bool.and_eq_true_iff.mp ok
    have chars := List.all_eq_true.mp chars
    have plain : ∀ c ∈ written, Url.Path.isInnerBlank c = false :=
      fun c hc => Url.isInnerBlank_of_isSchemeChar (chars c hc)
    refine ⟨⟨letter, fun c hc => .inr (chars c hc), ?_⟩, plain⟩
    rw [Url.Path.withoutInnerBlanks_eq_self plain, named]
  · rintro ⟨spells, plain⟩
    refine ⟨Bool.and_eq_true_iff.mpr ⟨spells.letter, List.all_eq_true.mpr fun c hc => ?_⟩, ?_⟩
    · exact (spells.chars c hc).resolve_left (by simp [plain c hc])
    · rw [← spells.name, Url.Path.withoutInnerBlanks_eq_self plain]

/-- **A text has the scheme that a reader of addresses finds**, when two slashes follow it and no
blanks are in it. -/
theorem schemeOf?_eq_some_iff_scheme? {address name : String} :
    Address.schemeOf? address = some name ↔
      (∃ rest, Url.scheme? address.toList = some (name, '/' :: '/' :: rest)) ∧
        ∀ c ∈ address.toList.takeWhile (· ≠ ':'), Url.Path.isInnerBlank c = false := by
  rw [schemeOf?_eq_some_iff]
  constructor
  · rintro ⟨written, rest, split, scheme⟩
    obtain ⟨spells, plain⟩ := isScheme_iff.mp scheme
    have whole : address.toList = written ++ ':' :: '/' :: '/' :: rest := by
      rw [split.eq, List.append_assoc]
      rfl
    refine ⟨⟨rest, Url.scheme?_eq_some_iff.mpr ⟨written, whole, spells⟩⟩, ?_⟩
    rwa [whole, spells.takeWhile_append]
  · rintro ⟨⟨rest, read⟩, plain⟩
    obtain ⟨written, whole, spells⟩ := Url.scheme?_eq_some_iff.mp read
    rw [whole, spells.takeWhile_append] at plain
    -- The first colon is the one that the two slashes follow.
    have colon : ':' ∉ written := fun hc => Url.ne_colon_of_mem_scheme (spells.chars ':' hc) rfl
    refine ⟨written, rest, ?_, isScheme_iff.mpr ⟨spells, plain⟩⟩
    rw [whole, Address.schemeMark]
    simpa using @Split.isFirst_of_notMem _ ':' ['/', '/'] written colon rest

/-- A text with a scheme that can be read as an address is read under that scheme. -/
theorem scheme_eq_of_parse [InternationalNames] {address name : String} {url : Url}
    (found : Address.schemeOf? address = some name) (read : Url.parse address = .ok url) :
    url.scheme = name := by
  obtain ⟨⟨rest, begins⟩, -⟩ := schemeOf?_eq_some_iff_scheme?.mp found
  obtain ⟨rest', trimmed⟩ := Url.scheme?_trimmed begins
  obtain ⟨rest'', under⟩ := Url.scheme_of_parse read
  rw [trimmed] at under
  exact (Prod.ext_iff.mp (Option.some.inj under)).1.symm

/-! ## Known schemes -/

/-- An address has a known scheme when it can be taken apart. -/
theorem ofAddress_eq_ok_iff {address : String} {known : Scheme} :
    ofAddress address = .ok known ↔ ∃ scheme rest, Begins known address scheme rest := by
  constructor
  · intro h
    unfold ofAddress at h
    split at h
    · rename_i name hs
      obtain ⟨scheme, rest, split, ok, rfl⟩ := schemeOf?_eq_some_iff.mp hs
      rw [parse_eq_ok_iff, map_toLower_ofList] at h
      exact ⟨scheme, rest, split, ok, h.symm⟩
    · cases h
  · rintro ⟨scheme, rest, h⟩
    rw [ofAddress, schemeOf?_eq_some_iff.mpr ⟨scheme, rest, h.split, h.isScheme, rfl⟩]
    exact parse_eq_ok_iff.mpr (by rw [map_toLower_ofList, h.name])

theorem ofAddress_eq_error {address : String} {e : SourceError}
    (h : ofAddress address = .error e) : ∃ text, e = .unsupportedScheme text := by
  unfold ofAddress at h
  split at h
  · exact ⟨_, parse_eq_error h⟩
  · exact ⟨_, (Except.error.inj h).symm⟩

/-- A scheme is taken away if it is written in small letters; else the address stays as it is. -/
theorem Begins.stripScheme_eq {known : Scheme} {address : String} {scheme rest : List Char}
    (h : Begins known address scheme rest) :
    Address.stripScheme known.name address =
      if scheme.map Char.toLower = scheme then String.ofList rest else address := by
  have name : known.name.toList = scheme.map Char.toLower := by
    rw [← h.name, String.toList_ofList]
  rw [Address.stripScheme, name]
  split
  · rename_i after stripped
    -- What is taken away is as long as the scheme and the mark, so it is these.
    have whole := Split.strip?_eq_some_iff.mp stripped
    have whole' := h.split.eq
    rw [whole, List.append_assoc, List.append_assoc] at whole'
    obtain ⟨small, same⟩ := List.append_inj whole' (by simp)
    rw [if_pos small, List.append_cancel_left same]
  · rename_i stays
    split
    · rename_i small
      rw [small, Split.strip?_eq_some_iff.mpr h.split.eq] at stays
      cases stays
    · rfl

end InstallMedia.Scheme
