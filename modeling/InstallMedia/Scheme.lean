import InstallMedia.Address

/-!
# Schemes of sources

## Main definitions

* `Scheme`: the kinds of address that name a source
* `Scheme.parse`, `Scheme.ofAddress`
-/

namespace InstallMedia

/-- The schemes of addresses that name a source. -/
inductive Scheme where
  | nfs
  | http
  | https
  | ftp
  | file
  | dev
  deriving DecidableEq, Repr

namespace Scheme

def all : List Scheme := [nfs, http, https, ftp, file, dev]

def name : Scheme → String
  | nfs => "nfs"
  | http => "http"
  | https => "https"
  | ftp => "ftp"
  | file => "file"
  | dev => "dev"

/-- The scheme of a name, written in letters of either case. -/
def parse (s : String) : Except SourceError Scheme :=
  match all.find? fun scheme => scheme.name = s.map Char.toLower with
  | some scheme => .ok scheme
  | none => .error (.unsupportedScheme s)

/-- The scheme of an address. -/
def ofAddress (address : String) : Except SourceError Scheme :=
  match Address.schemeOf? address with
  | some scheme => parse scheme
  | none => .error (.unsupportedScheme address)

end Scheme

end InstallMedia
