import InstallMedia.Source.Basic

/-!
# Recorded sources

A recorded source holds its files itself.  It has nothing special to do, so in all but opening it
behaves as every source does by default.

## Main definitions

* `RecordedSource`
-/

namespace InstallMedia

/-- Files by their names. -/
structure RecordedSource where
  files : List (String × Bytes)
  deriving DecidableEq, Repr

namespace RecordedSource

def openFile (name : String) : Operation RecordedSource Stream := fun (s, w) =>
  match s.files.lookup name with
  | some bytes => (.ok (.feed (Feed.ofBytes bytes)), s, w)
  | none => (.error (.notFound name), s, w)

instance : Source RecordedSource where
  readOnly _ := false
  openFile := openFile

end RecordedSource

end InstallMedia
