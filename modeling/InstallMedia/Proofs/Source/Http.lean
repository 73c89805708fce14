import InstallMedia.Proofs.Url.Plain
import InstallMedia.Proofs.Url.Userinfo
import InstallMedia.Source.Http

/-!
# Names on a site

The address of a name is an address of the site, with the name below the path of the base.  Two dots
are a name like any other, or none at all, unless tabs or line ends are among them: before every
other name, they lead to the directory above the base, and no further.  Names of any other kind are
asked for as they are, each at an address of its own.

## Main definitions

* `Url.SameSite`: addresses that differ in their path at most
* `HttpSource.NamesPlainly`: paths of names that are no directions and have no blanks

## Main results

* `HttpSource.isResolved_base`: the base of a site has a path of segments, without directions
* `HttpSource.urlFor_spec`: where the address of a name is
* `HttpSource.urlFor_plain`: names that are asked for as they are
-/

namespace InstallMedia

open Url.Path (IsPlain Led Spells Within stem)

/-- Addresses that differ in their path at most. -/
structure Url.SameSite (base url : Url) : Prop where
  scheme : url.scheme = base.scheme
  host : url.host? = base.host?
  port : url.port? = base.port?
  query : url.query = base.query

/-- The text of an address with a host gives its path. -/
theorem Url.joined_eq_of_text_eq {base : Url} (host : base.host?.isSome = true)
    {list list' : List String}
    (same : { base with path := .segments list }.text =
      { base with path := .segments list' }.text) :
    Url.Path.joined list = Url.Path.joined list' := by
  obtain ⟨a, ha⟩ : ∃ a, base.authority = some a := by
    cases ha : base.authority with
    | none => simp [host?, ha] at host
    | some a => exact ⟨a, rfl⟩
  have chars := congrArg String.toList same
  simp only [text, authorityText, ha, Path.text, String.toList_append, List.append_assoc,
    List.append_cancel_left_eq] at chars
  simp only [← List.append_assoc, List.append_cancel_right_eq] at chars
  exact String.toList_injective chars

namespace HttpSource

variable {address : String} {readOnly : Bool} {s : HttpSource}

/-- A site is what an address names, without credentials. -/
theorem ofAddress_eq_ok_iff [InternationalNames] :
    ofAddress address readOnly = .ok s ↔
      readOnly = true ∧ address.toList.getLast? = some '/' ∧
        ∃ url, Url.parse address = .ok url ∧ url.withoutCredentials? = some s.base ∧
          credentialsOf (Address.ofUrl url) = .ok s.credentials := by
  unfold ofAddress
  rw [check_eq_ok_iff, check_eq_ok_iff, bind_eq_ok_iff]
  simp only [mapError_eq_ok_iff, bind_eq_ok_iff, check_eq_ok_iff, Bool.not_eq_true,
    Bool.not_eq_false', ne_eq, not_not]
  refine and_congr_right fun _ => and_congr_right fun _ => exists_congr fun url =>
    and_congr_right fun _ => ?_
  cases hw : url.withoutCredentials? with
  | none =>
    constructor
    · rintro ⟨-, _, -, h⟩
      cases h
    · rintro ⟨h, -⟩
      cases h
  | some base =>
    obtain ⟨a, ha, host, -, -⟩ := Url.withoutCredentials?_eq_some_iff.mp hw
    have named : url.host?.isNone = false := by
      simpa [Url.host?, ha, Option.isSome_iff_ne_none] using host
    constructor
    · rintro ⟨-, credentials, hc, h⟩
      obtain rfl := Except.ok.inj h
      exact ⟨rfl, hc⟩
    · rintro ⟨hb, hc⟩
      obtain rfl := Option.some.inj hb
      exact ⟨named, s.credentials, hc, rfl⟩

/-- The path of a base has no directions. -/
theorem isResolved_base [InternationalNames] (h : ofAddress address readOnly = .ok s) :
    s.base.path.IsResolved := by
  obtain ⟨-, -, url, hp, hw, -⟩ := ofAddress_eq_ok_iff.mp h
  obtain ⟨a, ha, host, notFile, base⟩ := Url.withoutCredentials?_eq_some_iff.mp hw
  have resolved := Url.isResolved_of_parse hp (by simpa [Url.host?, ha] using host) notFile
  rw [← base]
  exact resolved

theorem host_base [InternationalNames] (h : ofAddress address readOnly = .ok s) :
    s.base.host?.isSome = true := by
  obtain ⟨-, -, url, -, hw, -⟩ := ofAddress_eq_ok_iff.mp h
  obtain ⟨a, -, host, -, base⟩ := Url.withoutCredentials?_eq_some_iff.mp hw
  rw [← base]
  exact host

/-- The address of a name is the base with the names added to its path. -/
theorem urlFor_eq {list : List String} (hl : s.base.path = .segments list) {name path : String}
    (decoded : percentDecode name = .ok path) :
    s.urlFor name = .ok { s.base with
      path := .segments (Url.Path.extend s.base.isSpecial list (namesOf path)) } := by
  rw [urlFor, decoded]
  simp only [hl]
  rfl

/-- Whatever a name is, its address is one of the site.  It is below the path of the base if the
names in it stay within, and only then if the path is longer than one segment; else it is below the
directory above.  A base that is two slashes counts as one. -/
theorem urlFor_spec [InternationalNames] (accepted : ofAddress address readOnly = .ok s)
    {name path : String} (decoded : percentDecode name = .ok path) :
    ∃ url, s.urlFor name = .ok url ∧ s.base.SameSite url ∧ url.path.IsResolved ∧
      (Within s.base.path.list (namesOf path) → stem s.base.path.list <+: url.path.list) ∧
      (1 < (stem s.base.path.list).length → stem s.base.path.list <+: url.path.list →
        Within s.base.path.list (namesOf path)) ∧
      (s.base.path.list ≠ ["", ""] → (stem s.base.path.list).dropLast <+: url.path.list) ∧
      (s.base.path.list = ["", ""] →
        url.path.list = Url.Path.extend s.base.isSpecial [""] (namesOf path)) := by
  obtain ⟨list, hl, places⟩ := isResolved_base accepted
  refine ⟨_, urlFor_eq hl decoded, ⟨rfl, rfl, rfl, rfl⟩,
    ⟨_, rfl, Url.Path.isPlace_extend places _⟩, ?_⟩
  rw [hl]
  refine ⟨Url.Path.stem_prefix_extend, Url.Path.within_of_stem_prefix_extend,
    fun h => Url.Path.dropLast_stem_prefix_extend h _, ?_⟩
  rintro (rfl : list = ["", ""])
  exact Url.Path.extend_slashes _

/-- The site `http://mirror/pub/xs/`. -/
def mirror : HttpSource where
  base :=
    { scheme := "http", authority := some { host := some (.domain "mirror") }
      path := .segments ["pub", "xs", ""], query := none, fragment := none }
  credentials := none

theorem ofAddress_mirror : ofAddress "http://mirror/pub/xs/" true = .ok mirror := rfl

theorem urlFor_mirror_within :
    ∃ url, mirror.urlFor "repodata/../comps.xml" = .ok url ∧ mirror.base.SameSite url ∧
      ["pub", "xs"] <+: url.path.list := by
  have decoded : percentDecode "repodata/../comps.xml" = .ok "repodata/../comps.xml" := rfl
  obtain ⟨url, found, site, -, below, -⟩ := urlFor_spec ofAddress_mirror decoded
  refine ⟨url, found, site, below ⟨by decide, Or.inr fun name first => ?_⟩⟩
  obtain rfl := Option.some.inj first
  decide

/-- Two dots with a tab between them lead out of the base. -/
theorem urlFor_mirror_leaves :
    percentDecode ".%09./secret" = .ok ".\t./secret" ∧
      ∃ url, mirror.urlFor ".%09./secret" = .ok url ∧ url.text = "http://mirror/pub//secret" ∧
        ¬ ["pub", "xs"] <+: url.path.list :=
  ⟨rfl, _, rfl, rfl, by decide⟩

/-! ## Names that are asked for as they are -/

/-- A path of names that are no directions, without tabs and line ends. -/
structure NamesPlainly (path : String) : Prop where
  no_blank : ∀ c ∈ path.toList, Url.Path.isInnerBlank c = false
  no_direction : ∀ name ∈ namesOf path, Url.Path.isLeftOut name = false

theorem NamesPlainly.isPlain {path : String} (h : NamesPlainly path) :
    ∀ name ∈ namesOf path, IsPlain name := by
  refine fun name hn => ⟨h.no_direction name hn, fun c hc => ?_⟩
  obtain ⟨field, hf, rfl⟩ := List.mem_map.mp hn
  rw [String.toList_ofList] at hc
  exact h.no_blank c ((List.dropWhile_sublist _).mem (Split.of_mem_fields hf hc).1)

/-- Of the names in a path the first is empty only if there is no other. -/
theorem led_namesOf (path : String) : Led (namesOf path) := by
  unfold namesOf
  cases h : path.toList.dropWhile (· = '/') with
  | nil => exact fun _ => rfl
  | cons c rest =>
    have noSlash : c ≠ '/' := by
      have head := List.head?_dropWhile_not (· = '/') path.toList
      rw [h] at head
      simpa using head
    have some_field : Split.fields (· = '/') rest ≠ [] := Split.fields_ne_nil rest
    obtain ⟨field, more, hf⟩ := List.exists_cons_of_ne_nil some_field
    rw [Split.fields_cons (by simpa using noSlash) hf]
    intro blank
    exact absurd (congrArg String.toList blank) (by simp)

/-- The names in a path determine it, but for slashes before the first. -/
theorem dropWhile_eq_of_namesOf_eq {path path' : String} (h : namesOf path = namesOf path') :
    path.toList.dropWhile (· = '/') = path'.toList.dropWhile (· = '/') :=
  Split.fields_injective '/'
    (List.map_injective_iff.mpr (fun _ _ he => String.ofList_injective he) h)

/-- **Names are asked for as they are.**  Below any base but two slashes, the segments of a name are
added to those of the base, each of them as the bytes it means and with nothing in it that ends a
segment or a path.  Names that differ in more than slashes before the first are asked for at
different addresses. -/
theorem urlFor_plain [InternationalNames] (accepted : ofAddress address readOnly = .ok s)
    (notSlashes : s.base.path.list ≠ ["", ""]) :
    (∀ name path, percentDecode name = .ok path → NamesPlainly path →
      ∃ url added, s.urlFor name = .ok url ∧ s.base.SameSite url ∧
        url.fragment = s.base.fragment ∧ url.path.list = stem s.base.path.list ++ added ∧
        List.Forall₂ (Spells s.base.isSpecial) (namesOf path) added) ∧
    ∀ name name' path path' url url',
      percentDecode name = .ok path → NamesPlainly path → s.urlFor name = .ok url →
      percentDecode name' = .ok path' → NamesPlainly path' → s.urlFor name' = .ok url' →
      path.toList.dropWhile (· = '/') ≠ path'.toList.dropWhile (· = '/') →
        url.text ≠ url'.text := by
  obtain ⟨list, hl, places⟩ := isResolved_base accepted
  rw [hl] at notSlashes ⊢
  change list ≠ ["", ""] at notSlashes
  have found : ∀ name path, percentDecode name = .ok path → NamesPlainly path →
      ∃ added, s.urlFor name = .ok { s.base with path := .segments (stem list ++ added) } ∧
        List.Forall₂ (Spells s.base.isSpecial) (namesOf path) added ∧
        ∀ segment ∈ stem list ++ added, '/' ∉ segment.toList := by
    intro name path decoded plain
    have whole := Url.Path.extend_of_isPlain s.base.isSpecial notSlashes
      (led_namesOf path) plain.isPlain
    refine ⟨_, by rw [urlFor_eq hl decoded, whole],
      Url.Path.forall₂_spells s.base.isSpecial plain.isPlain, fun segment hs => ?_⟩
    rw [← whole] at hs
    exact (Url.Path.isPlace_extend places (namesOf path) segment hs).slash_notMem
  constructor
  · intro name path decoded plain
    obtain ⟨added, hu, spells, -⟩ := found name path decoded plain
    exact ⟨_, added, hu, ⟨rfl, rfl, rfl, rfl⟩, rfl, rfl, spells⟩
  · intro name name' path path' url url' decoded plain hu decoded' plain' hu' differ same
    obtain ⟨added, he, spells, noSlash⟩ := found name path decoded plain
    obtain ⟨added', he', spells', noSlash'⟩ := found name' path' decoded' plain'
    obtain rfl := Except.ok.inj (hu.symm.trans he)
    obtain rfl := Except.ok.inj (hu'.symm.trans he')
    have segments := Url.Path.eq_of_joined_eq noSlash noSlash'
      (Url.joined_eq_of_text_eq (host_base accepted) same)
    rw [List.append_cancel_left segments] at spells
    exact differ (dropWhile_eq_of_namesOf_eq (Url.Path.eq_of_forall₂_spells spells spells'))

theorem urlFor_mirror_plain :
    (∃ url added, mirror.urlFor "a%23b//100%25" = .ok url ∧ mirror.base.SameSite url ∧
      url.path.list = ["pub", "xs"] ++ added ∧
        List.Forall₂ (Spells true) ["a#b", "", "100%"] added) ∧
      ∃ url url', mirror.urlFor "a%23b//100%25" = .ok url ∧
        mirror.urlFor "a%23b/100%25" = .ok url' ∧ url.text ≠ url'.text := by
  have decoded : percentDecode "a%23b//100%25" = .ok "a#b//100%" := rfl
  have decoded' : percentDecode "a%23b/100%25" = .ok "a#b/100%" := rfl
  have plain : NamesPlainly "a#b//100%" := ⟨by simp [Url.Path.isInnerBlank], by decide⟩
  have plain' : NamesPlainly "a#b/100%" := ⟨by simp [Url.Path.isInnerBlank], by decide⟩
  obtain ⟨asked, apart⟩ := urlFor_plain ofAddress_mirror (by decide)
  obtain ⟨url, added, found, site, -, below, spells⟩ := asked _ _ decoded plain
  obtain ⟨url', -, found', -⟩ := asked _ _ decoded' plain'
  exact ⟨⟨url, added, found, site, below, spells⟩, url, url', found, found',
    apart _ _ _ _ _ _ decoded plain found decoded' plain' found' (by decide)⟩

end HttpSource

end InstallMedia
