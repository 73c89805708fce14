import InstallMedia.Proofs.Url.Plain
import InstallMedia.Proofs.Url.Reader
import Mathlib.Data.List.TakeWhile

/-!
# Addresses with escaped parts

A text in which everything but letters and digits is percent-encoded stands in an address for
itself: it is read as it was written, in the place of a user name, a password or a path.

## Main definitions

* `Percent.Set.strict`, `Percent.Set.strictPath`: all but letters and digits, and slashes
* `Url.IsInert`: a character that no part of an address takes for anything but text
* `Url.written`: an address with user name, password, host and path

## Main results

* `Url.parse_written`: such an address is read as it was written
* `Url.Path.readFrom_strictPath`: an escaped path that has no direction is read as it was written
-/

namespace InstallMedia

/-! ## Escaped text -/

namespace Percent

/-- All but letters and digits. -/
def Set.strict : Set := fun c => !c.isAlphanum

/-- All but letters, digits and slashes. -/
def Set.strictPath : Set := fun c => !(c.isAlphanum || c = '/')

theorem toNat_lt_of_isAlphanum {c : Char} (h : c.isAlphanum = true) : c.toNat < 128 := by
  have kinds : ((c.isUpper || c.isLower) || c.isDigit) = true := h
  rw [Bool.or_eq_true, Bool.or_eq_true] at kinds
  rcases kinds with (upper | lower) | digit
  · exact Nat.lt_of_le_of_lt (UInt32.le_iff_toNat_le.mp (of_decide_eq_true upper).2) (by decide)
  · have below : (decide ('a'.val ≤ c.val) && decide (c.val ≤ 'z'.val)) = true := lower
    rw [Bool.and_eq_true, decide_eq_true_eq, decide_eq_true_eq] at below
    exact Nat.lt_of_le_of_lt (UInt32.le_iff_toNat_le.mp below.2) (by decide)
  · exact Nat.lt_of_le_of_lt (Char.isDigit_iff_toNat.mp digit).2 (by decide)

end Percent

namespace Url

/-- A character that no part of an address takes for anything but text. -/
structure IsInert (c : Char) : Prop where
  not_outerBlank : isOuterBlank c = false
  not_innerBlank : Path.isInnerBlank c = false
  not_endsAuthority : endsAuthority true c = false
  not_endsPath : endsPath c = false
  not_separator : Path.isSeparator true c = false
  not_userinfo : Percent.Set.userinfo c = false
  not_path : Percent.Set.path c = false
  ne_mark : c ≠ '@'
  ne_colon : c ≠ ':'

/-- What escaped text is made of is text everywhere. -/
theorem isInert_of_isAlphanum {c : Char} (h : c = '%' ∨ c.isAlphanum = true) : IsInert c := by
  have small : c.toNat < 128 := by
    rcases h with rfl | h
    · decide
    · exact Percent.toNat_lt_of_isAlphanum h
  -- There are few such characters, and each can be tried.
  have all : ∀ n : Fin 128, Char.ofNat n = '%' ∨ (Char.ofNat n).isAlphanum = true →
      (isOuterBlank (Char.ofNat n) = false ∧ Path.isInnerBlank (Char.ofNat n) = false) ∧
      (endsAuthority true (Char.ofNat n) = false ∧ endsPath (Char.ofNat n) = false ∧
        Path.isSeparator true (Char.ofNat n) = false) ∧
      (Percent.Set.userinfo (Char.ofNat n) = false ∧ Percent.Set.path (Char.ofNat n) = false) ∧
      Char.ofNat n ≠ '@' ∧ Char.ofNat n ≠ ':' := by
    decide +kernel
  have found := all ⟨c.toNat, small⟩
  rw [Char.ofNat_toNat] at found
  obtain ⟨⟨outer, inner⟩, ⟨authority, path, separator⟩, ⟨userinfo, segment⟩, mark, colon⟩ := found h
  exact ⟨outer, inner, authority, path, separator, userinfo, segment, mark, colon⟩

/-- Escaped text is text everywhere. -/
theorem isInert_of_mem_strict {c : Char} {cs : List Char}
    (h : c ∈ Percent.encodeChars .strict cs) : IsInert c := by
  rcases Percent.mem_encodeChars h with escape | ⟨-, out⟩
  · exact isInert_of_isAlphanum escape
  · exact isInert_of_isAlphanum (Or.inr (by simpa [Percent.Set.strict] using out))

/-- An escaped path is text but for its slashes. -/
theorem isInert_of_mem_strictPath {c : Char} {cs : List Char}
    (h : c ∈ Percent.encodeChars .strictPath cs) : c = '/' ∨ IsInert c := by
  rcases Percent.mem_encodeChars h with escape | ⟨-, out⟩
  · exact Or.inr (isInert_of_isAlphanum escape)
  · have plain : c.isAlphanum = true ∨ c = '/' := by
      simpa only [Percent.Set.strictPath, Bool.not_eq_false', Bool.or_eq_true,
        decide_eq_true_eq] using out
    exact plain.symm.imp id fun letter => isInert_of_isAlphanum (Or.inr letter)

/-- A host name of letters, digits, dots and dashes, as it is read under a special scheme. -/
structure Names [InternationalNames] (name : List Char) (host : Host) : Prop where
  read : Host.ofSpecial name = .ok host
  ne_nil : name ≠ []
  plain : ∀ c ∈ name, c.isAlphanum = true ∨ c = '.' ∨ c = '-'

/-- What a host name is made of is text everywhere, and neither of the brackets. -/
theorem Names.isInert [InternationalNames] {name : List Char} {host : Host} (h : Names name host)
    {c : Char} (hc : c ∈ name) : IsInert c := by
  rcases h.plain c hc with letter | rfl | rfl
  · exact isInert_of_isAlphanum (Or.inr letter)
  · constructor <;> decide
  · constructor <;> decide

/-! ## Whole addresses -/

/-- An address with these parts. -/
def written (user password host path : List Char) : List Char :=
  "ftp://".toList ++ (user ++ ':' :: password ++ '@' :: host ++ '/' :: path)

section Written

variable {user password name path : List Char} (hu : ∀ c ∈ user, IsInert c)
  (hp : ∀ c ∈ password, IsInert c)

include hu hp

/-- User name and password are read up to the mark. -/
theorem readCredentials_written (hn : ∀ c ∈ name, IsInert c) (full : password ≠ []) :
    readCredentials true (user ++ ':' :: password ++ '@' :: name ++ '/' :: path) =
      .ok ({ username := String.ofList user, password := some (String.ofList password) },
        name ++ '/' :: path) := by
  have goes_on : ∀ c ∈ user ++ ':' :: password ++ '@' :: name,
      (!endsAuthority true c) = true := by
    intro c hc
    simp only [List.append_assoc, List.cons_append, List.mem_append, List.mem_cons] at hc
    rcases hc with hc | rfl | hc | rfl | hc
    · simp [(hu c hc).not_endsAuthority]
    · decide
    · simp [(hp c hc).not_endsAuthority]
    · decide
    · simp [(hn c hc).not_endsAuthority]
  have whole : (user ++ ':' :: password ++ '@' :: name ++ '/' :: path).takeWhile
      (!endsAuthority true ·) = user ++ ':' :: password ++ '@' :: name := by
    rw [List.takeWhile_append_of_pos goes_on, List.takeWhile_cons_of_neg (by decide),
      List.append_nil]
  have rest : (user ++ ':' :: password ++ '@' :: name ++ '/' :: path).dropWhile
      (!endsAuthority true ·) = '/' :: path := by
    rw [List.dropWhile_append_of_pos goes_on, List.dropWhile_cons_of_neg (by decide)]
  -- The last mark ends the credentials, and the first colon ends the user.
  have mark : Split.atLast? (· = '@') (user ++ ':' :: password ++ '@' :: name) =
      some (user ++ ':' :: password, name) :=
    Split.atLast?_append (by simp) _ fun c hc => by simpa using (hn c hc).ne_mark
  have colon : Split.atFirst? (· = ':') (user ++ ':' :: password) = some (user, password) :=
    Split.atFirst?_append (by simp) (fun c hc => by simpa using (hu c hc).ne_colon) _
  have kept : Percent.encodeChars .userinfo user = user ∧
      Percent.encodeChars .userinfo password = password :=
    ⟨Percent.encodeChars_of_notMem fun c hc => (hu c hc).not_userinfo,
      Percent.encodeChars_of_notMem fun c hc => (hp c hc).not_userinfo⟩
  rw [readCredentials]
  simp only [whole, rest, mark, credentials, colon, kept, if_neg full]
  rw [if_neg (by simp)]

omit hp

/-- Two slashes stand before the user name, and no more. -/
theorem dropSlashes_written (rest : List Char) :
    ("//".toList ++ (user ++ ':' :: rest)).dropWhile (Path.isSeparator true) =
      user ++ ':' :: rest := by
  rw [List.dropWhile_append_of_pos (by simp [Path.isSeparator])]
  cases user with
  | nil => rfl
  | cons c user => exact List.dropWhile_cons_of_neg (by simp [(hu c (by simp)).not_separator])

omit hu

/-- Neither a query nor a fragment follows the path. -/
theorem endsPath_written (hd : ∀ c ∈ path, c = '/' ∨ IsInert c) :
    ('/' :: path).takeWhile (!endsPath ·) = '/' :: path ∧
      ('/' :: path).dropWhile (!endsPath ·) = [] := by
  have goes_on : ∀ c ∈ '/' :: path, (!endsPath c) = true := by
    intro c hc
    rcases List.mem_cons.mp hc with rfl | hc
    · decide
    · rcases hd c hc with rfl | inert
      · decide
      · simp [inert.not_endsPath]
  exact ⟨List.takeWhile_eq_self_iff.mpr goes_on, List.dropWhile_eq_nil_iff.mpr goes_on⟩

/-- A host goes up to the path. -/
theorem hostChars_written (plain : ∀ c ∈ name, IsInert c ∧ c ≠ '[') :
    hostChars true false (name ++ '/' :: path) = (name, '/' :: path) := by
  induction name with
  | nil => rfl
  | cons c name ih =>
    obtain ⟨⟨inert, bracket⟩, more⟩ := List.forall_mem_cons.mp plain
    rw [List.cons_append, hostChars,
      if_neg (by simp [inert.ne_colon, inert.not_endsAuthority])]
    simp [bracket, ih more]

variable [InternationalNames] {host : Host} (named : Names name host)

include named

/-- A host is read up to the path. -/
theorem readHost_written :
    readHost "ftp" (name ++ '/' :: path) = .ok (some host, none, '/' :: path) := by
  have whole : hostChars true false (name ++ '/' :: path) = (name, '/' :: path) := by
    refine hostChars_written fun c hc => ⟨named.isInert hc, ?_⟩
    rintro rfl
    rcases named.plain _ hc with letter | dot | dash
    · exact absurd letter (by decide)
    · exact absurd dot (by decide)
    · exact absurd dash (by decide)
  have special : isSpecialScheme "ftp" = true := by decide
  rw [readHost, special]
  simp only [whole, named.read, if_true]
  rw [if_neg (by simp [named.ne_nil])]
  rfl

include hu hp

theorem readAuthority_written (full : password ≠ []) :
    readAuthority "ftp" (user ++ ':' :: password ++ '@' :: name ++ '/' :: path) = .ok
      ({ username := String.ofList user, password := some (String.ofList password), host },
        '/' :: path) := by
  have special : isSpecialScheme "ftp" = true := by decide
  rw [readAuthority, special, readCredentials_written hu hp (fun c hc => named.isInert hc) full]
  change (readHost "ftp" _ >>= _) = _
  rw [readHost_written named]
  rfl

/-- What is written has no blanks, neither outside nor inside. -/
theorem not_blank_written (hd : ∀ c ∈ path, c = '/' ∨ IsInert c) {c : Char}
    (hc : c ∈ written user password name path) :
    isOuterBlank c = false ∧ Path.isInnerBlank c = false := by
  simp only [written, List.append_assoc, List.cons_append, List.mem_append, List.mem_cons] at hc
  rcases hc with hc | hc | rfl | hc | rfl | hc | rfl | hc
  · simp only [String.reduceToList, List.mem_cons, List.not_mem_nil, or_false] at hc
    rcases hc with rfl | rfl | rfl | rfl | rfl | rfl <;> decide
  · exact ⟨(hu c hc).not_outerBlank, (hu c hc).not_innerBlank⟩
  · decide
  · exact ⟨(hp c hc).not_outerBlank, (hp c hc).not_innerBlank⟩
  · decide
  · exact ⟨(named.isInert hc).not_outerBlank, (named.isInert hc).not_innerBlank⟩
  · decide
  · rcases hd c hc with rfl | inert
    · decide
    · exact ⟨inert.not_outerBlank, inert.not_innerBlank⟩

/-- An address is read as it was written. -/
theorem parse_written (full : password ≠ []) (hd : ∀ c ∈ path, c = '/' ∨ IsInert c) :
    parse (String.ofList (written user password name path)) = .ok
      { scheme := "ftp"
        authority := some
          { username := String.ofList user, password := some (String.ofList password), host }
        path := .ofChars (Path.readFrom true [] path)
        query := none
        fragment := none } := by
  have text := fun c (hc : c ∈ written user password name path) =>
    not_blank_written hu hp named hd hc
  have whole : trimmed (String.ofList (written user password name path)) =
      written user password name path := by
    rw [trimmed, String.toList_ofList]
    exact Split.trim_eq_self fun c hc => (text c hc).1
  have scheme : scheme? (written user password name path) =
      some ("ftp", "//".toList ++ (user ++ ':' :: password ++ '@' :: name ++ '/' :: path)) := rfl
  have special : isSpecialScheme "ftp" = true := by decide
  -- No blanks are taken out of what follows the scheme.
  have kept : Path.withoutInnerBlanks
      ("//".toList ++ (user ++ ':' :: password ++ '@' :: name ++ '/' :: path)) =
      "//".toList ++ (user ++ ':' :: password ++ '@' :: name ++ '/' :: path) :=
    Path.withoutInnerBlanks_eq_self fun c hc => (text c (List.mem_append_right "ftp:".toList hc)).2
  have slashes : ("//".toList ++ (user ++ ':' :: password ++ '@' :: name ++ '/' :: path)).dropWhile
      (Path.isSeparator true) = user ++ ':' :: password ++ '@' :: name ++ '/' :: path := by
    simp only [List.append_assoc, List.cons_append]
    exact dropSlashes_written hu _
  rw [parse, whole, scheme]
  dsimp only
  rw [readAfterScheme, if_neg (by decide), kept]
  unfold readOther
  rw [if_pos special, slashes, readAuthority_written hu hp named full]
  change Except.ok (withPath "ftp" _ ('/' :: path)) = _
  rw [withPath, special]
  simp only [endsPath_written hd]
  rfl

end Written

/-! ## Paths -/

namespace Path

/-- Segments of which none is a direction are all gone through. -/
theorem resolveFrom_of_places {raw : List (List Char)} (full : raw ≠ [])
    (places : ∀ segment ∈ raw, isDot segment = false ∧ isDotDot segment = false)
    (above : List (List Char)) : resolveFrom above raw = above ++ raw := by
  fun_induction resolveFrom above raw with
  | case1 above => exact absurd rfl full
  | case2 above last up => simp [(places last (by simp)).2] at up
  | case3 above last _ dot => simp [(places last (by simp)).1] at dot
  | case4 => rfl
  | case5 above segment rest _ up => simp [(places segment (by simp)).2] at up
  | case6 above segment rest _ _ dot => simp [(places segment (by simp)).1] at dot
  | case7 above segment rest more _ _ ih =>
    rw [ih (by simpa using more) fun s hs => places s (by simp [hs]), List.append_assoc]
    rfl

/-- What is written as a direction is one. -/
theorem not_direction_strictPath {part : List Char} (dot : part ≠ ['.'])
    (dotDot : part ≠ ['.', '.']) :
    isDot (Percent.encodeChars .strictPath part) = false ∧
      isDotDot (Percent.encodeChars .strictPath part) = false := by
  have meant := @Percent.decodeBytes_encodeChars .strictPath (by decide) part
  constructor
  · refine Bool.eq_false_iff.mpr fun direction => dot (Utf8.encodeChars_injective ?_)
    exact meant.symm.trans (decodeBytes_of_isDot direction)
  · refine Bool.eq_false_iff.mpr fun direction => dotDot (Utf8.encodeChars_injective ?_)
    exact meant.symm.trans (decodeBytes_of_isDotDot direction)

/-- The segments of an escaped path are the escaped parts, whatever else separates segments. -/
theorem fields_strictPath {isSeparator : Char → Bool} (slash : isSeparator '/' = true)
    (inert : ∀ c, IsInert c → isSeparator c = false) (cs : List Char) :
    Split.fields isSeparator (Percent.encodeChars .strictPath cs) =
      (Split.fields (· = '/') cs).map (Percent.encodeChars .strictPath) := by
  refine Split.fields_flatMap (fun c hc => ?_) (fun c hc d hd => inert d ?_) cs
  · obtain rfl := of_decide_eq_true hc
    exact ⟨'/', rfl, slash⟩
  · have written : d ∈ Percent.encodeChars .strictPath [c] := by
      simpa [Percent.encodeChars] using hd
    rcases Percent.mem_encodeChars written with escape | ⟨same, out⟩
    · exact isInert_of_isAlphanum escape
    · obtain rfl := List.mem_singleton.mp same
      exact (isInert_of_mem_strictPath written).resolve_left (of_decide_eq_false hc)

/-- An escaped path that has no direction is read as it was written, segment by segment. -/
theorem readFrom_strictPath {cs : List Char}
    (parts : ∀ part ∈ Split.fields (· = '/') cs, part ≠ ['.'] ∧ part ≠ ['.', '.']) :
    readFrom true [] (Percent.encodeChars .strictPath cs) =
      (Split.fields (· = '/') cs).map (Percent.encodeChars .strictPath) := by
  have kept : Percent.encodeChars .path ∘ Percent.encodeChars .strictPath =
      Percent.encodeChars .strictPath := by
    refine funext fun part => Percent.encodeChars_of_notMem fun c hc => ?_
    rcases isInert_of_mem_strictPath hc with rfl | inert
    · decide
    · exact inert.not_path
  rw [readFrom, fields_strictPath rfl (fun c h => h.not_separator), List.map_map,
    kept, resolveFrom_of_places]
  · rfl
  · simpa using Split.fields_ne_nil cs
  · intro segment hs
    obtain ⟨part, hp, rfl⟩ := List.mem_map.mp hs
    exact not_direction_strictPath (parts part hp).1 (parts part hp).2

/-- The text of an escaped path is what was written, after a slash. -/
theorem text_strictPath (path : String) :
    (ofChars ((Split.fields (· = '/') path.toList).map (Percent.encodeChars .strictPath))).text =
      "/" ++ Percent.encode .strictPath path := by
  have slashes : ∀ c, IsInert c → decide (c = '/') = false := by
    rintro c inert
    refine decide_eq_false ?_
    rintro rfl
    exact absurd inert.not_separator (by decide)
  have same : String.toList ∘ String.ofList = id := funext fun _ => String.toList_ofList
  apply String.toList_injective
  rw [← fields_strictPath (by decide) slashes, ofChars, text, toList_joined, List.map_map, same,
    List.map_id, Split.flatMap_cons_fields]
  simp [Percent.encode]

end Path

end Url

end InstallMedia
