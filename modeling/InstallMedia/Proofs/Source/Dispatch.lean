import InstallMedia.Proofs.Address
import InstallMedia.Proofs.Source.Any
import InstallMedia.Proofs.Source.Frame
import InstallMedia.Proofs.Source.Http

/-!
# The source that a scheme stands for

The scheme of an address is looked for twice: where it is decided what kind of source the address
names, and where the address of a site is read.  Both find the same scheme, however it is spelled
and whatever follows it, so that no site is made of an address that is read under another scheme.

## Main definitions

* `AnySource.Serves`: the kind of source that each scheme stands for

## Main results

* `AnySource.create_serves`: a source is of the kind that the scheme of its address stands for, and
  is asked under this scheme
-/

namespace InstallMedia

/-- The parts of an address have the scheme of its text. -/
theorem Address.scheme_eq_of_parse [InternationalNames] {address name : String} {parts : Address}
    (found : schemeOf? address = some name) (read : parse address = .ok parts) :
    parts.scheme = name := by
  obtain ⟨url, parsed, rfl⟩ := parse_eq_ok_iff.mp read
  exact Scheme.scheme_eq_of_parse found parsed

/-- The base of a site has the scheme of its address. -/
theorem HttpSource.scheme_base [InternationalNames] {address name : String} {readOnly : Bool}
    {s : HttpSource} (found : Address.schemeOf? address = some name)
    (made : ofAddress address readOnly = .ok s) :
    s.base.scheme = name := by
  obtain ⟨-, -, url, read, bare, -⟩ := ofAddress_eq_ok_iff.mp made
  obtain ⟨a, -, -, -, base⟩ := Url.withoutCredentials?_eq_some_iff.mp bare
  have scheme : s.base.scheme = url.scheme := by rw [← base]
  exact scheme.trans (Scheme.scheme_eq_of_parse found read)

/-- The parts of the address of a site have its scheme. -/
theorem FtpSource.scheme_address [InternationalNames] {address name : String} {readOnly : Bool}
    {s : FtpSource} (found : Address.schemeOf? address = some name)
    (made : ofAddress address readOnly = .ok s) :
    s.address.scheme = name := by
  obtain ⟨-, parts, read, -, rfl⟩ := ofAddress_eq_ok_iff.mp made
  exact Address.scheme_eq_of_parse found read

namespace AnySource

/-- A source of the kind that a scheme stands for.  A site is asked under this scheme. -/
inductive Serves : Scheme → AnySource → Prop where
  | nfs (s : NfsSource) : Serves .nfs (.nfs s)
  | device (s : DeviceSource) : Serves .dev (.device s)
  | file (s : FileSource) : Serves .file (.file s)
  | http {s : HttpSource} (scheme : s.base.scheme = "http") : Serves .http (.http s)
  | https {s : HttpSource} (scheme : s.base.scheme = "https") : Serves .https (.http s)
  | ftp {s : FtpSource} (scheme : s.address.scheme = "ftp") : Serves .ftp (.ftp s)

variable {address : String} {options : SourceOptions} {known : Scheme} {s : AnySource}

theorem serves_of_createFor [InternationalNames]
    (found : Address.schemeOf? address = some known.name)
    (made : createFor known address options = .ok s) : Serves known s := by
  cases known with
  | nfs =>
    obtain rfl := Except.ok.inj made
    exact .nfs _
  | dev =>
    obtain rfl := Except.ok.inj made
    exact .device _
  | file =>
    obtain ⟨files, -, rfl⟩ := map_eq_ok_iff.mp made
    exact .file files
  | http =>
    obtain ⟨site, accepted, rfl⟩ := map_eq_ok_iff.mp made
    exact .http (HttpSource.scheme_base found accepted)
  | https =>
    obtain ⟨site, accepted, rfl⟩ := map_eq_ok_iff.mp made
    exact .https (HttpSource.scheme_base found accepted)
  | ftp =>
    obtain ⟨site, accepted, rfl⟩ := map_eq_ok_iff.mp made
    exact .ftp (FtpSource.scheme_address found accepted)

/-- No call changes the kind of a source, or the address of a site. -/
theorem Serves.run [InternationalNames] (h : Serves known s) (calls : List Call) (w : World) :
    Serves known (Call.run calls (s, w)).1 := by
  cases h with
  | nfs s =>
    rw [wraps_nfs.run]
    exact .nfs _
  | device s =>
    rw [wraps_device.run]
    exact .device _
  | file s =>
    rw [wraps_file.run]
    exact .file _
  | @http s scheme =>
    obtain ⟨requests, now⟩ := HttpSource.run_frame calls s w
    rw [wraps_http.run, now]
    exact .http scheme
  | @https s scheme =>
    obtain ⟨requests, now⟩ := HttpSource.run_frame calls s w
    rw [wraps_http.run, now]
    exact .https scheme
  | @ftp s scheme =>
    obtain ⟨session, dialled, ended, now⟩ := FtpSource.run_frame calls (s, w)
    rw [wraps_ftp.run, now]
    exact .ftp scheme

/-- **An address has one scheme.**  An address with a scheme is read under that scheme, if it can be
read.  So a source is of the kind that the scheme of its address stands for, whatever is done with
it, and a site is asked under this scheme. -/
theorem create_serves [InternationalNames] (address : String) :
    (∀ name parts, Address.schemeOf? address = some name → Address.parse address = .ok parts →
      parts.scheme = name) ∧
    ∀ options s, create address options = .ok s →
      ∃ known : Scheme, Address.schemeOf? address = some known.name ∧
        ∀ calls w, Serves known (Call.run calls (s, w)).1 := by
  refine ⟨fun name parts => Address.scheme_eq_of_parse, fun options s created => ?_⟩
  obtain ⟨known, named, made⟩ := bind_eq_ok_iff.mp created
  obtain ⟨scheme, rest, begins⟩ := Scheme.ofAddress_eq_ok_iff.mp named
  have found : Address.schemeOf? address = some known.name :=
    Scheme.schemeOf?_eq_some_iff.mpr ⟨scheme, rest, begins.split, begins.isScheme, begins.name⟩
  exact ⟨known, found, (serves_of_createFor found made).run⟩

/-- Letters of either case, and a tab in the host. -/
theorem create_serves_mixedCase :
    (Address.schemeOf? "HtTpS://Mir\tror/pub/" = some "https" ∧
      ∃ parts, Address.parse "HtTpS://Mir\tror/pub/" = .ok parts ∧ parts.scheme = "https") ∧
    (∃ s, create "HtTpS://Mir\tror/pub/" { readOnly := true } = .ok s ∧
      ∀ w, Serves .https (Call.run [.start, .openFile "a"] (s, w)).1) ∧
    ∃ s, create "FTP://Mirror:2121/pub/" {} = .ok s ∧
      ∀ w, Serves .ftp (Call.run [.start, .openFile "a", .finish] (s, w)).1 := by
  have serves {address : String} {options : SourceOptions} {known : Scheme} (calls : List Call)
      (found : Address.schemeOf? address = some known.name)
      (made : (create address options).isOk = true) :
      ∃ s, create address options = .ok s ∧ ∀ w, Serves known (Call.run calls (s, w)).1 := by
    obtain ⟨s, created⟩ := exists_of_isOk made
    obtain ⟨known', found', serves⟩ := (create_serves address).2 options s created
    obtain rfl := Scheme.name_injective (Option.some.inj (found.symm.trans found'))
    exact ⟨s, created, serves calls⟩
  have found : Address.schemeOf? "HtTpS://Mir\tror/pub/" = some "https" := by decide +kernel
  have readable : (Address.parse "HtTpS://Mir\tror/pub/").isOk = true := by decide +kernel
  obtain ⟨parts, read⟩ := exists_of_isOk readable
  exact ⟨⟨found, parts, read, (create_serves _).1 _ _ found read⟩,
    serves _ found (by decide +kernel), serves _ (by decide +kernel) (by decide +kernel)⟩

end AnySource

end InstallMedia
