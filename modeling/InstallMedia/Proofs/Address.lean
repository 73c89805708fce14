import InstallMedia.Address
import InstallMedia.Proofs.Url.Written

/-!
# Addresses of directories on servers

An FTP address carries a user name, a password and a directory, whatever characters they are made
of: if everything but letters and digits is percent-encoded, the address gives back what was put in.

## Main definitions

* `Address.locating`: the address of a directory on a host, with user name and password
* `Address.Locatable`: what such an address can carry

## Main results

* `Address.parse_locating`, `Address.decoded_located`: the parts of such an address
-/

namespace InstallMedia

/-- What means the bytes of a text is decoded to it. -/
theorem percentDecode_encode {set : Percent.Set} (h : set '%' = true) (text : String) :
    percentDecode (Percent.encode set text) = .ok text := by
  have bytes : Percent.decodeBytes (Percent.encode set text).toList =
      Utf8.encodeChars text.toList := by
    rw [Percent.encode, String.toList_ofList, Percent.decodeBytes_encodeChars h]
  have read : Utf8.decodeChars (Utf8.encodeChars text.toList) = .ok text.toList :=
    Utf8.decodeChars_eq_ok_iff.mpr rfl
  rw [percentDecode, Percent.decode, bytes, Utf8.decode, read]
  simp [Except.map, Except.mapError]

namespace Address

/-- The address of a directory on a host, with all but letters and digits escaped in its parts. -/
def locating (user password host directory : String) : String :=
  "ftp://" ++ Percent.encode .strict user ++ ":" ++ Percent.encode .strict password ++ "@" ++
    host ++ "/" ++ Percent.encode .strictPath directory

/-- What an address can carry: a user name and a password, and a directory that is empty or ends
with a slash, without directions in it. -/
structure Locatable (user password directory : String) : Prop where
  user_ne : user ≠ ""
  password_ne : password ≠ ""
  slash : directory = "" ∨ directory.toList.getLast? = some '/'
  parts : ∀ part ∈ Split.fields (· = '/') directory.toList, part ≠ ['.'] ∧ part ≠ ['.', '.']

/-- The parts of such an address, as they are written in it. -/
def located (user password : String) (host : Host) (directory : String) : Address where
  scheme := "ftp"
  username := some (Percent.encode .strict user)
  password := some (Percent.encode .strict password)
  hostname := some host.bare
  port := none
  path := "/" ++ Percent.encode .strictPath directory

variable {user password name directory : String} {host : Host}

theorem parse_eq_ok_iff [InternationalNames] {address : String} {a : Address} :
    parse address = .ok a ↔ ∃ url, Url.parse address = .ok url ∧ ofUrl url = a := by
  unfold parse
  cases Url.parse address <;> simp

/-- The parts of an address with an authority. -/
theorem ofUrl_of_authority {url : Url} {a : Url.Authority} (h : url.authority = some a) :
    ofUrl url =
      { scheme := url.scheme
        username := if a.username = "" then none else some a.username
        password := a.password
        hostname := a.host.map Host.bare
        port := a.port
        path := url.path.text } := by
  simp only [ofUrl, Url.username, Url.password?, Url.host?, Url.port?, h, Option.bind_some]

theorem encode_ne_empty {set : Percent.Set} (h : set '%' = true) {text : String}
    (full : text ≠ "") : Percent.encode set text ≠ "" := by
  intro empty
  have decoded := percentDecode_encode h text
  rw [empty] at decoded
  exact full (Except.ok.inj decoded).symm

theorem toList_locating (user password name directory : String) :
    (locating user password name directory).toList =
      Url.written (Percent.encodeChars .strict user.toList)
        (Percent.encodeChars .strict password.toList) name.toList
        (Percent.encodeChars .strictPath directory.toList) := by
  simp [locating, Url.written, Percent.encode]

/-- The address is read as it was written. -/
theorem parse_locating [InternationalNames] (h : Locatable user password directory)
    (named : Url.Names name.toList host) :
    parse (locating user password name directory) = .ok (located user password host directory) := by
  have text : locating user password name directory = String.ofList
      (Url.written (Percent.encodeChars .strict user.toList)
        (Percent.encodeChars .strict password.toList) name.toList
        (Percent.encodeChars .strictPath directory.toList)) := by
    rw [← toList_locating, String.ofList_toList]
  have full : Percent.encodeChars .strict password.toList ≠ [] := by
    have ne := @encode_ne_empty .strict (by decide) password h.password_ne
    exact fun empty => ne (by rw [Percent.encode, empty])
  have inert {text : String} : ∀ c ∈ Percent.encodeChars .strict text.toList, Url.IsInert c :=
    fun c hc => Url.isInert_of_mem_strict hc
  rw [parse, text, Url.parse_written inert inert named full
    fun c hc => Url.isInert_of_mem_strictPath hc, Url.Path.readFrom_strictPath h.parts]
  have called : String.ofList (Percent.encodeChars .strict user.toList) ≠ "" :=
    @encode_ne_empty .strict (by decide) user h.user_ne
  dsimp only
  rw [ofUrl_of_authority rfl, if_neg called, Url.Path.text_strictPath]
  rfl

/-- The address names a directory. -/
theorem getLast?_locating (h : Locatable user password directory) :
    (locating user password name directory).toList.getLast? = some '/' := by
  obtain ⟨front, slash⟩ :
      ∃ front, '/' :: Percent.encodeChars .strictPath directory.toList = front ++ ['/'] := by
    rcases h.slash with rfl | last
    · exact ⟨[], rfl⟩
    · obtain ⟨above, same⟩ := List.getLast?_eq_some_iff.mp last
      refine ⟨'/' :: Percent.encodeChars .strictPath above, ?_⟩
      rw [same, Percent.encodeChars, List.flatMap_append]
      rfl
  rw [toList_locating, Url.written, slash, ← List.append_assoc, ← List.append_assoc,
    List.getLast?_concat]

/-- The parts of such an address mean what was put in. -/
theorem decoded_located (user password : String) (host : Host) (directory : String) :
    let a := located user password host directory
    a.decodedUsername = .ok (some user) ∧ a.decodedPassword = .ok (some password) ∧
      a.decodedDirectory = .ok directory := by
  have directory' : (located user password host directory).encodedDirectory =
      Percent.encode .strictPath directory := by
    have path : (located user password host directory).path.toList =
        '/' :: (Percent.encode .strictPath directory).toList := String.toList_append
    rw [encodedDirectory, path]
    exact String.ofList_toList
  refine ⟨?_, ?_, ?_⟩
  · exact map_eq_ok_iff.mpr ⟨user, percentDecode_encode (by decide) user, rfl⟩
  · exact map_eq_ok_iff.mpr ⟨password, percentDecode_encode (by decide) password, rfl⟩
  · rw [decodedDirectory, directory']
    exact percentDecode_encode (by decide) directory

end Address

end InstallMedia
