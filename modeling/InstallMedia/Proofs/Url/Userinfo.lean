import InstallMedia.Proofs.Attempt
import InstallMedia.Proofs.Text.Split
import InstallMedia.Proofs.Url.Reader

/-!
# User names and passwords in addresses

User name and password stand between the slashes and the host of an address, up to the last `@`.  An
address from which they are left out is read as the same address without them.

## Main definitions

* `Url.withoutUserinfo`: the text of an address without user name and password

## Main results

* `Url.parse_withoutUserinfo`: what is read without them
-/

namespace InstallMedia.Url

/-- Credentials are taken out of addresses with a host that are not those of files. -/
theorem withoutCredentials?_eq_some_iff {url base : Url} :
    url.withoutCredentials? = some base ↔
      ∃ a, url.authority = some a ∧ a.host.isSome = true ∧ url.scheme ≠ "file" ∧
        { url with authority := some { a with username := "", password := none } } = base := by
  unfold withoutCredentials?
  cases url.authority with
  | none => simp
  | some a => cases h : a.host <;> simp [h]

/-! ## Texts without user name and password -/

/-- What follows the slashes of an address, without user name and password. -/
def dropUserinfo (special : Bool) (cs : List Char) : List Char :=
  match Split.atLast? (· = '@') (cs.takeWhile (!endsAuthority special ·)) with
  | none => cs
  | some (_, host) => host ++ cs.dropWhile (!endsAuthority special ·)

/-- Whether a character may stand between the colon of a scheme and what the slashes begin. -/
def isBeforeAuthority (special : Bool) (c : Char) : Bool :=
  Path.isSeparator special c || Path.isInnerBlank c

/-- What follows the colon of a scheme, without user name and password. -/
def dropUserinfoAfterSlashes (special : Bool) (cs : List Char) : List Char :=
  cs.takeWhile (isBeforeAuthority special) ++
    dropUserinfo special (cs.dropWhile (isBeforeAuthority special))

/-- The text of an address without user name and password, the rest of it as it stands. -/
def withoutUserinfo (s : String) : String :=
  match scheme? (s.toList.dropWhile isOuterBlank) with
  | none => s
  | some (scheme, rest) =>
    String.ofList (s.toList.take (s.toList.length - rest.length) ++
      dropUserinfoAfterSlashes (isSpecialScheme scheme) rest)

/-! ## Lists of which elements are left out -/

section Filter

variable {α : Type} (p blank : α → Bool)

/-- What is read past may be left out before. -/
theorem filter_takeWhile_or (xs : List α) :
    (xs.takeWhile fun x => p x || blank x).filter (!blank ·) =
      (xs.filter (!blank ·)).takeWhile p := by
  induction xs with
  | nil => rfl
  | cons x xs ih =>
    cases hb : blank x <;> cases hp : p x <;> simp [hb, hp, ih]

theorem filter_dropWhile_or (xs : List α) :
    (xs.dropWhile fun x => p x || blank x).filter (!blank ·) =
      (xs.filter (!blank ·)).dropWhile p := by
  induction xs with
  | nil => rfl
  | cons x xs ih =>
    cases hb : blank x <;> cases hp : p x <;> simp [hb, hp, ih]

/-- What is no separator may be left out before a text is split. -/
theorem atLast?_filter {isSeparator : α → Bool} (h : ∀ x, isSeparator x = true → blank x = false)
    (xs : List α) :
    Split.atLast? isSeparator (xs.filter (!blank ·)) =
      (Split.atLast? isSeparator xs).map fun (before, after) =>
        (before.filter (!blank ·), after.filter (!blank ·)) := by
  induction xs with
  | nil => rfl
  | cons x xs ih =>
    cases hb : blank x with
    | true =>
      have plain : isSeparator x = false := by
        by_contra sep
        simp [h x (by simpa using sep)] at hb
      rw [List.filter_cons_of_neg (by simp [hb]), ih, Split.atLast?]
      cases Split.atLast? isSeparator xs <;> simp [plain, hb]
    | false =>
      rw [List.filter_cons_of_pos (by simp [hb]), Split.atLast?, Split.atLast?, ih]
      cases Split.atLast? isSeparator xs with
      | some parts => simp [hb]
      | none => cases isSeparator x <;> simp

end Filter

/-! ## Reading what follows the slashes -/

variable {special : Bool} {scheme : String} {cs rest : List Char} {a : Authority}

/-- Characters of an authority are all read as such in front of what ends it. -/
theorem takeWhile_append_rest {host : List Char}
    (h : host <:+ cs.takeWhile (!endsAuthority special ·)) :
    (host ++ cs.dropWhile (!endsAuthority special ·)).takeWhile (!endsAuthority special ·) =
      host := by
  have goes_on : ∀ c ∈ host, (!endsAuthority special c) = true :=
    fun c hc => List.all_eq_true.mp List.all_takeWhile c (h.subset hc)
  have stops : (cs.dropWhile (!endsAuthority special ·)).takeWhile (!endsAuthority special ·) =
      [] := by
    have head := List.head?_dropWhile_not (!endsAuthority special ·) cs
    cases h : cs.dropWhile (!endsAuthority special ·) with
    | nil => rfl
    | cons c rest =>
      rw [h] at head
      exact List.takeWhile_cons_of_neg (by simpa using head)
  rw [List.takeWhile_append_of_pos goes_on, stops, List.append_nil]

/-- Without user name and password there are none. -/
theorem readCredentials_dropUserinfo (special : Bool) (cs : List Char) :
    readCredentials special (dropUserinfo special cs) = .ok ({}, dropUserinfo special cs) := by
  have none_left : Split.atLast? (· = '@')
      ((dropUserinfo special cs).takeWhile (!endsAuthority special ·)) = none := by
    unfold dropUserinfo
    split
    · assumption
    · rename_i userinfo host split
      obtain ⟨mark, whole, none_after, -⟩ := Split.spec_of_atLast? split
      have ends : host <:+ cs.takeWhile (!endsAuthority special ·) :=
        ⟨userinfo ++ [mark], by simp [whole]⟩
      rw [takeWhile_append_rest ends]
      exact Split.atLast?_eq_none_iff.mpr none_after
  unfold readCredentials
  dsimp only
  rw [none_left]

/-- What follows user name and password is what is left without them. -/
theorem rest_of_readCredentials
    (h : readCredentials special cs = .ok (a, rest)) : rest = dropUserinfo special cs := by
  unfold readCredentials at h
  unfold dropUserinfo
  dsimp only at h
  cases found : Split.atLast? (· = '@') (cs.takeWhile (!endsAuthority special ·)) with
  | none =>
    simp only [found] at h ⊢
    exact (Prod.ext_iff.mp (Except.ok.inj h)).2.symm
  | some parts =>
    simp only [found] at h ⊢
    split at h
    · cases h
    · exact (Prod.ext_iff.mp (Except.ok.inj h)).2.symm

/-- A host begins with what ends no authority. -/
theorem not_endsAuthority_of_readHost [InternationalNames] {host : Host} {port : Option Nat}
    {c : Char} (h : readHost scheme (c :: cs) = .ok (some host, port, rest)) :
    endsAuthority (isSpecialScheme scheme) c = false := by
  by_contra ends
  have none_read : hostChars (isSpecialScheme scheme) false (c :: cs) = ([], c :: cs) := by
    rw [hostChars, if_pos (by simp [ends])]
  simp only [readHost, none_read] at h
  cases special : isSpecialScheme scheme with
  | true =>
    rw [special] at h
    cases h
  | false =>
    have colon : c ≠ ':' := by
      rintro rfl
      exact ends (by rw [special]; decide)
    rw [special] at h
    obtain ⟨-, h⟩ := check_eq_ok_iff.mp h
    obtain ⟨none_, hn, h⟩ := bind_eq_ok_iff.mp h
    obtain rfl : none = none_ := Except.ok.inj hn
    split at h
    · rename_i same
      exact colon (List.cons.inj same).1
    · cases h

theorem readAuthority_dropUserinfo [InternationalNames]
    (h : readAuthority scheme cs = .ok (a, rest)) :
    readAuthority scheme (dropUserinfo (isSpecialScheme scheme) cs) =
      .ok ({ a with username := "", password := none }, rest) := by
  unfold readAuthority at h ⊢
  obtain ⟨⟨info, after⟩, hi, read⟩ := bind_eq_ok_iff.mp h
  obtain ⟨⟨host, port, rest'⟩, hh, read⟩ := bind_eq_ok_iff.mp read
  obtain ⟨-, read⟩ := check_eq_ok_iff.mp read
  obtain ⟨rfl, rfl⟩ := Prod.ext_iff.mp (Except.ok.inj read)
  rw [rest_of_readCredentials hi] at hh
  rw [readCredentials_dropUserinfo]
  change (readHost scheme _ >>= _) = _
  rw [hh]
  change (if (host.isNone && false) = true then _ else _) = _
  rw [if_neg (by simp)]
  rfl

theorem endsAuthority_of_isSeparator {c : Char} (h : Path.isSeparator special c = true) :
    endsAuthority special c = true := by
  simp only [Path.isSeparator, Bool.or_eq_true] at h
  rcases h with h | h <;> simp [endsAuthority, h]

/-- Where a host is read, it does not begin with a slash. -/
theorem not_isSeparator_of_readAuthority [InternationalNames]
    (h : readAuthority scheme cs = .ok (a, rest))
    (host : a.host.isSome = true) {c : Char} {more : List Char}
    (hc : dropUserinfo (isSpecialScheme scheme) cs = c :: more) :
    Path.isSeparator (isSpecialScheme scheme) c = false := by
  unfold readAuthority at h
  obtain ⟨⟨info, after⟩, hi, read⟩ := bind_eq_ok_iff.mp h
  obtain ⟨⟨found, port, rest'⟩, hh, read⟩ := bind_eq_ok_iff.mp read
  obtain ⟨-, read⟩ := check_eq_ok_iff.mp read
  obtain ⟨rfl, rfl⟩ := Prod.ext_iff.mp (Except.ok.inj read)
  obtain ⟨found, rfl⟩ := Option.isSome_iff_exists.mp host
  rw [rest_of_readCredentials hi, hc] at hh
  refine Bool.eq_false_iff.mpr fun separator => ?_
  have goes_on := not_endsAuthority_of_readHost hh
  rw [endsAuthority_of_isSeparator separator] at goes_on
  cases goes_on

/-- No user name begins with a slash. -/
theorem dropUserinfo_of_isSeparator {c : Char} (h : Path.isSeparator special c = true)
    (cs : List Char) : dropUserinfo special (c :: cs) = c :: cs := by
  have none_read : (c :: cs).takeWhile (!endsAuthority special ·) = [] :=
    List.takeWhile_cons_of_neg (by simp [endsAuthority_of_isSeparator h])
  unfold dropUserinfo
  rw [none_read]
  rfl

/-! ## Reading what follows the scheme -/

theorem withoutInnerBlanks_dropUserinfo (special : Bool) (cs : List Char) :
    Path.withoutInnerBlanks (dropUserinfo special cs) =
      dropUserinfo special (Path.withoutInnerBlanks cs) := by
  have passed : ∀ c, ((!endsAuthority special c) || Path.isInnerBlank c) =
      !endsAuthority special c := by
    intro c
    cases hb : Path.isInnerBlank c with
    | false => simp
    | true =>
      simp only [Path.isInnerBlank, Bool.or_eq_true, decide_eq_true_eq] at hb
      rcases hb with (rfl | rfl) | rfl <;> cases special <;> decide
  have front := filter_takeWhile_or (!endsAuthority special ·) Path.isInnerBlank cs
  have back := filter_dropWhile_or (!endsAuthority special ·) Path.isInnerBlank cs
  simp only [passed] at front back
  have mark : ∀ c, decide (c = '@') = true → Path.isInnerBlank c = false := by
    simp only [decide_eq_true_eq]
    rintro _ rfl
    decide
  unfold dropUserinfo Path.withoutInnerBlanks
  rw [← front, ← back, atLast?_filter Path.isInnerBlank mark]
  cases Split.atLast? (· = '@') (cs.takeWhile (!endsAuthority special ·)) with
  | none => rfl
  | some parts => exact List.filter_append _ _

variable {url base : Url}

/-- Slashes are read as such in front of what begins with none. -/
theorem dropWhile_takeWhile_append {p : Char → Bool} (cs : List Char) {after : List Char}
    (h : ∀ c more, after = c :: more → p c = false) :
    (cs.takeWhile p ++ after).dropWhile p = after := by
  have slashes : ∀ c ∈ cs.takeWhile p, p c = true := List.all_eq_true.mp List.all_takeWhile
  rw [List.dropWhile_append_of_pos slashes]
  cases after with
  | nil => rfl
  | cons c more => exact List.dropWhile_cons_of_neg (by simp [h c more rfl])

/-- Without user name and password, what follows the scheme is read as the same address. -/
theorem readOther_dropUserinfo [InternationalNames] (h : readOther scheme cs = .ok url)
    (bare : url.withoutCredentials? = some base) :
    readOther scheme (cs.takeWhile (Path.isSeparator (isSpecialScheme scheme)) ++
      dropUserinfo (isSpecialScheme scheme)
        (cs.dropWhile (Path.isSeparator (isSpecialScheme scheme)))) = .ok base := by
  unfold readOther at h ⊢
  by_cases special : isSpecialScheme scheme = true
  · rw [if_pos special] at h ⊢
    obtain ⟨⟨a, rest⟩, ha, read⟩ := bind_eq_ok_iff.mp h
    obtain rfl := Except.ok.inj read
    obtain ⟨_, found, host, -, rfl⟩ := withoutCredentials?_eq_some_iff.mp bare
    obtain rfl := Option.some.inj found
    have begins := @not_isSeparator_of_readAuthority _ _ _ _ _ ha host
    have read := readAuthority_dropUserinfo ha
    simp only [special] at begins read ⊢
    rw [dropWhile_takeWhile_append cs (fun _ _ => begins), read]
    rfl
  · rw [if_neg special] at h ⊢
    split at h
    · rename_i after
      obtain ⟨⟨a, rest⟩, ha, read⟩ := bind_eq_ok_iff.mp h
      obtain rfl := Except.ok.inj read
      obtain ⟨_, found, host, -, rfl⟩ := withoutCredentials?_eq_some_iff.mp bare
      obtain rfl := Option.some.inj found
      have begins := @not_isSeparator_of_readAuthority _ _ _ _ _ ha host
      have read := readAuthority_dropUserinfo ha
      simp only [special] at begins read ⊢
      have stops : after.takeWhile (Path.isSeparator false) = [] ∧
          after.dropWhile (Path.isSeparator false) = after := by
        cases after with
        | nil => exact ⟨rfl, rfl⟩
        | cons c more =>
          have plain : Path.isSeparator false c = false := by
            refine Bool.eq_false_iff.mpr fun slash => ?_
            have no_slash := begins (dropUserinfo_of_isSeparator slash more)
            exact absurd (slash.symm.trans no_slash) (by decide)
          exact ⟨List.takeWhile_cons_of_neg (by simp [plain]),
            List.dropWhile_cons_of_neg (by simp [plain])⟩
      have slash : Path.isSeparator false '/' = true := rfl
      simp only [List.takeWhile_cons, List.dropWhile_cons, slash, if_true, stops]
      change (readAuthority scheme (dropUserinfo false after) >>= _) = _
      rw [read]
      rfl
    · obtain rfl := Except.ok.inj h
      cases bare
    · obtain rfl := Except.ok.inj h
      cases bare

/-- The scheme is read whatever follows it. -/
theorem scheme?_append (h : scheme? cs = some (scheme, rest)) :
    ∃ c front, cs = c :: front ++ rest ∧ c.isAlpha = true ∧
      ∀ rest', scheme? (c :: front ++ rest') = some (scheme, rest') := by
  obtain ⟨written, rfl, spells⟩ := scheme?_eq_some_iff.mp h
  cases written with
  | nil => cases spells.letter
  | cons c written =>
    refine ⟨c, written ++ [':'], by simp, spells.letter, fun rest' => ?_⟩
    exact scheme?_eq_some_iff.mpr ⟨c :: written, by simp, spells⟩

/-! ## Reading the whole text -/

theorem withoutInnerBlanks_dropUserinfoAfterSlashes (special : Bool) (cs : List Char) :
    Path.withoutInnerBlanks (dropUserinfoAfterSlashes special cs) =
      (Path.withoutInnerBlanks cs).takeWhile (Path.isSeparator special) ++
        dropUserinfo special
          ((Path.withoutInnerBlanks cs).dropWhile (Path.isSeparator special)) := by
  have front := filter_takeWhile_or (Path.isSeparator special) Path.isInnerBlank cs
  have back := filter_dropWhile_or (Path.isSeparator special) Path.isInnerBlank cs
  rw [dropUserinfoAfterSlashes, Path.withoutInnerBlanks, List.filter_append]
  change _ ++ Path.withoutInnerBlanks (dropUserinfo special _) = _
  rw [withoutInnerBlanks_dropUserinfo]
  exact congrArg₂ (· ++ dropUserinfo special ·) front back

/-- The end of a text that ends with a slash is not part of user name and password. -/
theorem getLast?_append_dropUserinfo (front : List Char)
    (h : (front ++ cs).getLast? = some '/') :
    (front ++ dropUserinfo special cs).getLast? = some '/' := by
  unfold dropUserinfo
  split
  · exact h
  · rename_i userinfo host split
    have whole : cs.takeWhile (!endsAuthority special ·) ++
        cs.dropWhile (!endsAuthority special ·) = cs := List.takeWhile_append_dropWhile
    cases back : cs.dropWhile (!endsAuthority special ·) with
    | nil =>
      -- Then the slash is part of the authority, which it ends.
      rw [back, List.append_nil] at whole
      obtain ⟨mark, parts, -⟩ := Split.spec_of_atLast? split
      rw [whole] at parts
      have slash : '/' ∈ cs := by
        rw [parts, ← List.append_assoc, List.getLast?_append_of_ne_nil _ (by simp)] at h
        rw [parts]
        exact List.mem_append_right _ (List.mem_of_getLast? h)
      rw [← whole] at slash
      exact absurd (List.all_eq_true.mp List.all_takeWhile '/' slash) (by simp [endsAuthority])
    | cons c rest =>
      rw [← whole, back] at h
      simpa [List.getLast?_append] using h

theorem trimmed_of_getLast? {s : String} (h : s.toList.getLast? = some '/') :
    trimmed s = s.toList.dropWhile isOuterBlank := by
  apply Split.trimEnd_eq_self
  intro c hc
  obtain ⟨front, hf⟩ := List.dropWhile_suffix isOuterBlank (l := s.toList)
  rw [← hf, List.getLast?_append, hc] at h
  obtain rfl : c = '/' := by simpa using h
  decide

/-- **User name and password are read apart from the rest.**  An address that ends with a slash is
read without them as what it is without them. -/
theorem parse_withoutUserinfo [InternationalNames] {s : String}
    (slash : s.toList.getLast? = some '/') (h : parse s = .ok url)
    (bare : url.withoutCredentials? = some base) :
    (withoutUserinfo s).toList.getLast? = some '/' ∧ parse (withoutUserinfo s) = .ok base := by
  rw [parse, trimmed_of_getLast? slash] at h
  split at h
  · cases h
  · rename_i scheme rest hs
    obtain ⟨a, ha, host, notFile, -⟩ := withoutCredentials?_eq_some_iff.mp bare
    have other : scheme ≠ "file" := by
      rintro rfl
      exact notFile (scheme_of_readFile h)
    rw [readAfterScheme, if_neg other] at h
    obtain ⟨c, front, hf, letter, again⟩ := scheme?_append hs
    have visible : isOuterBlank c = false := isOuterBlank_of_isAlpha letter
    have parts : s.toList = s.toList.takeWhile isOuterBlank ++ c :: front ++ rest := by
      rw [List.append_assoc, ← hf, List.takeWhile_append_dropWhile]
    have text : (withoutUserinfo s).toList = s.toList.takeWhile isOuterBlank ++ c :: front ++
        dropUserinfoAfterSlashes (isSpecialScheme scheme) rest := by
      have before : s.toList.take (s.toList.length - rest.length) =
          s.toList.takeWhile isOuterBlank ++ c :: front :=
        (congrArg (List.take _) parts).trans (List.take_left' (by
          have length := congrArg List.length parts
          rw [List.length_append] at length
          omega))
      rw [withoutUserinfo, hs]
      dsimp only
      rw [String.toList_ofList, before]
    have ends : (withoutUserinfo s).toList.getLast? = some '/' := by
      rw [text, dropUserinfoAfterSlashes, ← List.append_assoc]
      apply getLast?_append_dropUserinfo
      rw [List.append_assoc, List.takeWhile_append_dropWhile, ← parts]
      exact slash
    refine ⟨ends, ?_⟩
    have blanks : ∀ d ∈ s.toList.takeWhile isOuterBlank, isOuterBlank d = true :=
      List.all_eq_true.mp List.all_takeWhile
    rw [parse, trimmed_of_getLast? ends, text, List.append_assoc,
      List.dropWhile_append_of_pos blanks, List.cons_append,
      List.dropWhile_cons_of_neg (by simp [visible]), ← List.cons_append, again]
    dsimp only
    rw [readAfterScheme, if_neg other, withoutInnerBlanks_dropUserinfoAfterSlashes]
    exact readOther_dropUserinfo h bare

end InstallMedia.Url
