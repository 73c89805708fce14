import InstallMedia.Proofs.Scheme
import InstallMedia.Proofs.Source.MountCalls
import InstallMedia.Source.Any

/-!
# Addresses and the sources they name

An address names a source if it begins with a known scheme, in letters of either case.  The device,
the export or the directory is what follows the scheme, if the scheme is written in small letters;
otherwise it is the whole address, which names something else or nothing.

## Main definitions

* `SourceError.Refuses`: what is said of an address under a known scheme
* `AnySource.target?`: what a source was made for

## Main results

* `AnySource.create_spec`: which addresses name a source, and what the source was made for
-/

namespace InstallMedia

/-! ## Refusals -/

/-- What is said of an address under a known scheme: it breaks a rule, or cannot be read. -/
inductive SourceError.Refuses : SourceError → Prop where
  | precondition (breach : Breach) : Refuses (.precondition breach)
  | invalidAddress (address : String) (cause : AddressCause) :
    Refuses (.invalidAddress address cause)

open SourceError (Refuses)

theorem percentDecode_refuses {text : String} {e : SourceError}
    (h : percentDecode text = .error e) : e.Refuses := by
  obtain ⟨fault, -, rfl⟩ := mapError_eq_error_iff.mp h
  exact .invalidAddress _ _

theorem Address.decodePart_refuses {part : Option String} {e : SourceError}
    (h : decodePart part = .error e) : e.Refuses := by
  cases part with
  | none => cases h
  | some encoded => exact percentDecode_refuses (map_eq_error_iff.mp h)

theorem HttpSource.credentialsOf_refuses {a : Address} {e : SourceError}
    (h : credentialsOf a = .error e) : e.Refuses := by
  unfold credentialsOf at h
  rcases bind_eq_error_iff.mp h with h | ⟨username, -, h⟩
  · exact Address.decodePart_refuses h
  · split at h
    · cases h
    · rcases bind_eq_error_iff.mp h with h | ⟨password, -, h⟩
      · exact Address.decodePart_refuses h
      · cases h

theorem HttpSource.ofAddress_refuses [InternationalNames] {address : String} {readOnly : Bool}
    {e : SourceError} (h : ofAddress address readOnly = .error e) : e.Refuses := by
  unfold ofAddress at h
  rcases check_eq_error_iff.mp h with ⟨-, rfl⟩ | ⟨-, h⟩
  · exact .precondition _
  rcases check_eq_error_iff.mp h with ⟨-, rfl⟩ | ⟨-, h⟩
  · exact .precondition _
  rcases bind_eq_error_iff.mp h with h | ⟨url, -, h⟩
  · obtain ⟨fault, -, rfl⟩ := mapError_eq_error_iff.mp h
    exact .invalidAddress _ _
  rcases check_eq_error_iff.mp h with ⟨-, rfl⟩ | ⟨-, h⟩
  · exact .invalidAddress _ _
  rcases bind_eq_error_iff.mp h with h | ⟨credentials, -, h⟩
  · exact credentialsOf_refuses h
  split at h
  · obtain rfl := Except.error.inj h
    exact .invalidAddress _ _
  · cases h

theorem FtpSource.ofAddress_refuses [InternationalNames] {address : String} {readOnly : Bool}
    {e : SourceError} (h : ofAddress address readOnly = .error e) : e.Refuses := by
  unfold ofAddress at h
  split at h
  · obtain rfl := Except.error.inj h
    exact .precondition _
  split at h
  · rename_i e' hp
    obtain rfl := Except.error.inj h
    unfold Address.parse at hp
    split at hp
    · cases hp
    · obtain rfl := Except.error.inj hp
      exact .invalidAddress _ _
  · split at h
    · obtain rfl := Except.error.inj h
      exact .invalidAddress _ _
    · cases h

theorem FileSource.ofAddress_refuses {address : String} {readOnly : Bool} {e : SourceError}
    (h : ofAddress address readOnly = .error e) : e.Refuses := by
  unfold ofAddress at h
  dsimp only at h
  split at h
  · cases h
  · obtain rfl := Except.error.inj h
    exact .precondition _

/-- An address of files names a source if what it names ends with a slash. -/
theorem FileSource.ofAddress_eq_ok_iff {address : String} {readOnly : Bool} {s : FileSource} :
    ofAddress address readOnly = .ok s ↔
      (Address.stripScheme "file" address).toList.getLast? = some '/' ∧
        s = ⟨Address.stripScheme "file" address, readOnly⟩ := by
  unfold ofAddress
  by_cases slash : (Address.stripScheme "file" address).toList.getLast? = some '/'
  · simp [slash, eq_comm]
  · simp [slash]

open Source (Wraps)

namespace AnySource

/-- Under a known scheme an address names a source, or is refused. -/
theorem createFor_refuses [InternationalNames] {known : Scheme} {address : String}
    {options : SourceOptions} {e : SourceError} (h : createFor known address options = .error e) :
    e.Refuses := by
  cases known with
  | nfs => cases h
  | dev => cases h
  | http => exact HttpSource.ofAddress_refuses (map_eq_error_iff.mp h)
  | https => exact HttpSource.ofAddress_refuses (map_eq_error_iff.mp h)
  | ftp => exact FtpSource.ofAddress_refuses (map_eq_error_iff.mp h)
  | file => exact FileSource.ofAddress_refuses (map_eq_error_iff.mp h)

/-- An address is of no supported scheme exactly when it does not begin with a known one. -/
theorem create_unsupportedScheme_iff [InternationalNames] (address : String)
    (options : SourceOptions) :
    (∃ text, create address options = .error (.unsupportedScheme text)) ↔
      ¬ ∃ known scheme rest, Scheme.Begins known address scheme rest := by
  constructor
  · rintro ⟨text, h⟩ ⟨known, begins⟩
    have named := Scheme.ofAddress_eq_ok_iff.mpr begins
    rcases bind_eq_error_iff.mp h with h | ⟨known', -, h⟩
    · rw [named] at h
      cases h
    · exact nomatch createFor_refuses h
  · intro none
    cases named : Scheme.ofAddress address with
    | ok known => exact absurd ⟨known, Scheme.ofAddress_eq_ok_iff.mp named⟩ none
    | error e =>
      obtain ⟨text, rfl⟩ := Scheme.ofAddress_eq_error named
      exact ⟨text, bind_eq_error_iff.mpr (Or.inl named)⟩

/-! ## Kinds of sources -/

theorem wraps_nfs [InternationalNames] : Wraps nfs :=
  ⟨fun call s w => by cases call <;> rfl, fun _ _ => rfl⟩

theorem wraps_device [InternationalNames] : Wraps device :=
  ⟨fun call s w => by cases call <;> rfl, fun _ _ => rfl⟩

theorem wraps_http [InternationalNames] : Wraps http :=
  ⟨fun call s w => by cases call <;> rfl, fun _ _ => rfl⟩

theorem wraps_ftp [InternationalNames] : Wraps ftp :=
  ⟨fun call s w => by cases call <;> rfl, fun _ _ => rfl⟩

theorem wraps_file [InternationalNames] : Wraps file :=
  ⟨fun call s w => by cases call <;> rfl, fun _ _ => rfl⟩

/-- A source does what the mounted source inside it does. -/
theorem exists_wraps [InternationalNames] {s : AnySource} {m : MountedSource}
    (h : s.mounted? = some m) :
    ∃ wrap : MountedSource → AnySource,
      Wraps wrap ∧ (∀ m, (wrap m).mounted? = some m) ∧ wrap m = s := by
  cases s with
  | nfs s =>
    obtain rfl := Option.some.inj h
    exact ⟨_, wraps_nfs.comp s.wraps, fun _ => rfl, rfl⟩
  | device s =>
    obtain rfl := Option.some.inj h
    exact ⟨_, wraps_device.comp s.wraps, fun _ => rfl, rfl⟩
  | http s => cases h
  | ftp s => cases h
  | file s => cases h

/-! ## What sources were made for -/

/-- The device, the export or the directory that a source was made for; other sources have none. -/
def target? : AnySource → Option String
  | nfs s => some s.path
  | device s => some s.device
  | file s => some s.base
  | http _ => none
  | ftp _ => none

/-- A source was made for what is left of its address without the scheme, and so was the mounted
source inside it. -/
theorem createFor_spec [InternationalNames] {known : Scheme} {address : String}
    {options : SourceOptions} {s : AnySource} (h : createFor known address options = .ok s) :
    (∀ target, s.target? = some target → target = Address.stripScheme known.name address) ∧
      ∀ m, s.mounted? = some m → s.target? = some m.device := by
  cases known with
  | nfs =>
    obtain rfl := Except.ok.inj h
    exact ⟨fun target ht => (Option.some.inj ht).symm, fun m hm => by cases hm; rfl⟩
  | dev =>
    obtain rfl := Except.ok.inj h
    exact ⟨fun target ht => (Option.some.inj ht).symm, fun m hm => by cases hm; rfl⟩
  | http =>
    obtain ⟨site, -, rfl⟩ := map_eq_ok_iff.mp h
    exact ⟨fun target ht => (by cases ht), fun m hm => (by cases hm)⟩
  | https =>
    obtain ⟨site, -, rfl⟩ := map_eq_ok_iff.mp h
    exact ⟨fun target ht => (by cases ht), fun m hm => (by cases hm)⟩
  | ftp =>
    obtain ⟨site, -, rfl⟩ := map_eq_ok_iff.mp h
    exact ⟨fun target ht => (by cases ht), fun m hm => (by cases hm)⟩
  | file =>
    obtain ⟨files, hf, rfl⟩ := map_eq_ok_iff.mp h
    obtain ⟨-, rfl⟩ := FileSource.ofAddress_eq_ok_iff.mp hf
    exact ⟨fun target ht => (Option.some.inj ht).symm, fun m hm => nomatch hm⟩

/-- All that a run of calls asks for is the device of the mounted source inside. -/
theorem run_mountsOnly [InternationalNames] {s : AnySource} {m : MountedSource}
    (hm : s.mounted? = some m) (calls : List Call) (w : World) :
    World.MountsOnly m.device w (Call.run calls (s, w)).2 := by
  obtain ⟨wrap, wraps, -, rfl⟩ := exists_wraps hm
  rw [wraps.run]
  exact MountBacked.run_mountsOnly calls (m, w)

/-- An address has no source for want of a scheme exactly when it does not begin with a known one.
What a source was made for, and all that is ever mounted for it, is what follows a scheme in small
letters, and the whole address after any other spelling. -/
theorem create_spec [InternationalNames] (address : String) (options : SourceOptions) :
    ((∃ text, create address options = .error (.unsupportedScheme text)) ↔
      ¬ ∃ known scheme rest, Scheme.Begins known address scheme rest) ∧
    ∀ s target, create address options = .ok s → s.target? = some target →
      (∃ known scheme rest, Scheme.Begins known address scheme rest ∧
        target = if scheme.map Char.toLower = scheme then String.ofList rest else address) ∧
      ∀ m, s.mounted? = some m → m.device = target ∧
        ∀ calls w, World.MountsOnly target w (Call.run calls (s, w)).2 := by
  refine ⟨create_unsupportedScheme_iff address options, fun s target h ht => ?_⟩
  obtain ⟨known, named, made⟩ := bind_eq_ok_iff.mp h
  obtain ⟨scheme, rest, begins⟩ := Scheme.ofAddress_eq_ok_iff.mp named
  obtain ⟨left, device⟩ := createFor_spec made
  refine ⟨⟨known, scheme, rest, begins, ?_⟩, fun m hm => ?_⟩
  · rw [left target ht, begins.stripScheme_eq]
  · obtain rfl : target = m.device := Option.some.inj (ht.symm.trans (device m hm))
    exact ⟨rfl, run_mountsOnly hm⟩

/-- The device `/dev/sr0`, under a scheme in small letters. -/
theorem begins_drive :
    Scheme.Begins .dev "dev:///dev/sr0" ['d', 'e', 'v'] "/dev/sr0".toList :=
  ⟨Split.around?_eq_some_iff.mp rfl, rfl, rfl⟩

theorem create_drive :
    ∃ s, create "dev:///dev/sr0" {} = .ok s ∧ s.target? = some "/dev/sr0" ∧
      ∀ calls w, World.MountsOnly "/dev/sr0" w (Call.run calls (s, w)).2 := by
  have named := Scheme.ofAddress_eq_ok_iff.mpr ⟨_, _, begins_drive⟩
  have made : create "dev:///dev/sr0" {} = createFor .dev "dev:///dev/sr0" {} := by
    rw [create, named]
    rfl
  refine ⟨_, made, rfl, ?_⟩
  exact (((create_spec "dev:///dev/sr0" {}).2 _ _ made rfl).2 _ rfl).2

/-- In capital letters the scheme is known, but it stays before the device. -/
theorem create_drive_capital :
    Scheme.Begins .dev "DEV:///dev/sr0" ['D', 'E', 'V'] "/dev/sr0".toList ∧
      ∃ s, create "DEV:///dev/sr0" {} = .ok s ∧ s.target? = some "DEV:///dev/sr0" := by
  have begins : Scheme.Begins .dev "DEV:///dev/sr0" ['D', 'E', 'V'] "/dev/sr0".toList :=
    ⟨Split.around?_eq_some_iff.mp rfl, rfl, rfl⟩
  have named := Scheme.ofAddress_eq_ok_iff.mpr ⟨_, _, begins⟩
  have made : create "DEV:///dev/sr0" {} = createFor .dev "DEV:///dev/sr0" {} := by
    rw [create, named]
    rfl
  exact ⟨begins, _, made, rfl⟩

end AnySource

end InstallMedia
