import InstallMedia.Proofs.Files.Place
import InstallMedia.Proofs.Files.Tree

/-!
# What paths reach

Whatever a path leads to in a tree stands at the location of the path's place, and a file that is
made at a path changes nothing at any other location.

## Main definitions

* `FilePath.Place.location`: the location of a place in a tree
* `FileTree.locationOf`: the location of a path's place
* `FileTree.OnlyAt`: trees that differ at one location at most

## Main results

* `FileTree.location_of_find`, `FileTree.openFile_spec`: where what a path leads to stands
* `FileTree.location_temporary`: where the paths of temporary directories lead
* `FileTree.createFile_onlyAt`: what making a file changes
-/

namespace InstallMedia

/-- An entry, opened. -/
def Entry.opened : Entry → OpenFile
  | .directory => .directory
  | .file id _ => .file id 0

/-! ## Locations of places -/

namespace FilePath.Place

/-- The location of a place, seen from the directory where relative paths begin. -/
def location (workingDirectory : Location) (place : Place) : Location :=
  if place.absolute then place.names
  else workingDirectory.take (workingDirectory.length - place.up) ++ place.names

variable {base place : Place} {workingDirectory : Location}

/-- One step up from a place is one from its location. -/
theorem location_above (workingDirectory : Location) (place : Place) :
    place.above.location workingDirectory = (place.location workingDirectory).dropLast := by
  unfold above location
  by_cases none : place.names = []
  · cases habs : place.absolute with
    | true => simp [none, habs]
    | false =>
      have step : (workingDirectory.take (workingDirectory.length - place.up)).dropLast =
          workingDirectory.take (workingDirectory.length - (place.up + 1)) := by
        rw [List.dropLast_eq_take, List.take_take, List.length_take]
        congr 1
        omega
      simp [none, step]
  · cases place.absolute with
    | true => simp [none]
    | false => simp [none, List.dropLast_append_of_ne_nil]

/-- A component leads from the location of a place to that of the place it leads to. -/
theorem location_enter (workingDirectory : Location) (place : Place) (component : String) :
    (place.enter component).location workingDirectory =
      FileTree.next (place.location workingDirectory) component := by
  unfold enter FileTree.next
  split
  · rfl
  · split
    · exact location_above workingDirectory place
    · unfold location
      split
      · rfl
      · rw [List.append_assoc]

/-- A place below another one has its location below that of the other one. -/
theorem IsBelow.location (h : base.IsBelow place) (workingDirectory : Location) :
    base.location workingDirectory <+: place.location workingDirectory := by
  unfold Place.location
  rw [h.absolute, h.up]
  split
  · exact h.names
  · exact (List.prefix_append_right_inj _).mpr h.names

end FilePath.Place

namespace FileTree

open FilePath (place)

variable {tree tree' : FileTree} {here : Location} {path : String}

/-! ## Walks -/

/-- The location of a path's place is where its components lead. -/
theorem location_place (tree : FileTree) (path : String) :
    (place path).location tree.workingDirectory =
      (FilePath.components path).foldl next (tree.start path) := by
  have start : FilePath.Place.location tree.workingDirectory
      { absolute := FilePath.isAbsolute path } = tree.start path := by
    unfold FilePath.Place.location FileTree.start
    split <;> simp_all
  rw [← start, place]
  generalize ({ absolute := FilePath.isAbsolute path } : FilePath.Place) = first
  induction FilePath.components path generalizing first with
  | nil => rfl
  | cons component rest ih =>
    rw [List.foldl_cons, List.foldl_cons, ih, FilePath.Place.location_enter]

def Found.location : Found → Location
  | .present location _ => location
  | .absent location => location

theorem foldl_next_blanks {names : List String} (h : ∀ name ∈ names, name = "") :
    names.foldl next here = here := by
  induction names with
  | nil => rfl
  | cons name rest ih =>
    obtain rfl := h name (by simp)
    rw [List.foldl_cons, next, if_pos (Or.inl rfl)]
    exact ih fun n hn => h n (by simp [hn])

/-- A walk that finds something finds it where the components lead. -/
theorem location_of_walk {names : List String} {found : Found}
    (h : tree.walk here names = .ok found) : found.location = names.foldl next here := by
  induction names generalizing here with
  | nil =>
    rw [walk] at h
    split at h
    · obtain rfl := Except.ok.inj h
      rfl
    · cases h
  | cons name rest ih =>
    rw [walk] at h
    split at h
    · cases h
    rw [List.foldl_cons, next]
    split at h
    · rename_i blank
      rw [if_pos blank]
      exact ih h
    rename_i blank
    rw [if_neg blank]
    split at h
    · rename_i up
      rw [if_pos up]
      exact ih h
    rename_i up
    rw [if_neg up]
    split at h
    · cases h
    split at h
    · exact ih h
    split at h
    · rename_i blanks
      obtain rfl := Except.ok.inj h
      rw [foldl_next_blanks (by simpa using blanks)]
      rfl
    · cases h

/-- What a path leads to stands at the location of the path's place. -/
theorem location_of_find {found : Found} (h : tree.find path = .ok found) :
    found.location = (place path).location tree.workingDirectory := by
  rw [location_place]
  unfold find at h
  obtain ⟨-, -, h⟩ := bind_eq_ok_iff.mp h
  exact location_of_walk (mapError_eq_ok_iff.mp h)

/-- What a walk finds at a location stands there. -/
theorem entry_of_walk {location : Location} {entry : Entry} {names : List String}
    (h : tree.walk here names = .ok (.present location entry)) :
    tree.entry? location = some entry := by
  induction names generalizing here with
  | nil =>
    rw [walk] at h
    split at h
    · rename_i stands
      obtain ⟨rfl, rfl⟩ : here = location ∧ _ = entry := by simpa using h
      exact stands
    · cases h
  | cons name rest ih =>
    rw [walk_of_enters (enters_of_walk h)] at h
    exact ih h

/-- What is opened at a path stands at the location of the path's place. -/
theorem openFile_spec {file : OpenFile} (h : tree.openFile path = .ok file) :
    ∃ entry, tree.entry? ((place path).location tree.workingDirectory) = some entry ∧
      file = entry.opened := by
  unfold openFile at h
  obtain ⟨found, hf, h⟩ := bind_eq_ok_iff.mp h
  rw [← location_of_find hf]
  cases found with
  | present location entry =>
    have stands := entry_of_walk (find_eq_present_iff.mp hf).2
    refine ⟨entry, stands, ?_⟩
    cases entry with
    | directory => exact (Except.ok.inj h).symm
    | file id isProgram => exact (Except.ok.inj h).symm
  | absent location => cases h

/-! ## Temporary directories -/

/-- The location of a path's place. -/
def locationOf (tree : FileTree) (path : String) : Location :=
  (place path).location tree.workingDirectory

/-- A name without slashes that is no direction is a place of one name. -/
theorem place_of_isProperName {name : String} (proper : isProperName name = true)
    (whole : '/' ∉ name.toList) : place name = { absolute := false, names := [name] } := by
  have components : FilePath.components name = [name] := by
    have one : Split.fields (· = '/') name.toList = [name.toList] :=
      Split.fields_of_notMem fun c hc => decide_eq_false fun slash => whole (slash ▸ hc)
    rw [FilePath.components, one]
    simp
  have relative : FilePath.isAbsolute name = false := by
    refine decide_eq_false fun slash => whole ?_
    exact List.mem_of_mem_head? slash
  obtain ⟨⟨h1, h2⟩, h3⟩ : (name ≠ "" ∧ name ≠ ".") ∧ name ≠ ".." := by
    simpa [isProperName] using proper
  rw [place, components, relative, List.foldl_cons, List.foldl_nil, FilePath.Place.enter,
    if_neg (not_or.mpr ⟨h1, h2⟩), if_neg h3]
  rfl

/-- The names of temporary directories begin with their stem, and digits follow it. -/
theorem place_temporaryName {stem : String} (long : 2 < stem.toList.length)
    (whole : '/' ∉ stem.toList) (number : Nat) :
    place (temporaryName stem number) =
      { absolute := false, names := [temporaryName stem number] } := by
  have chars : ∃ digits, (∀ c ∈ digits, c.isDigit = true) ∧
      (temporaryName stem number).toList = stem.toList ++ digits := by
    refine ⟨List.replicate (6 - (Nat.toDigits 10 number).length) '0' ++ Nat.toDigits 10 number,
      fun c hc => ?_, by simp [temporaryName]⟩
    rcases List.mem_append.mp hc with zero | digit
    · obtain rfl := List.eq_of_mem_replicate zero
      rfl
    · exact Nat.isDigit_of_mem_toDigits (by decide) (by decide) digit
  obtain ⟨digits, decimal, chars⟩ := chars
  refine place_of_isProperName ?_ ?_
  · -- A stem of three characters is longer than any name that is none.
    have longer (short : String) (h : short.toList.length ≤ 2) :
        temporaryName stem number ≠ short := by
      rintro rfl
      rw [chars, List.length_append] at h
      omega
    simp [isProperName, longer "" (by decide), longer "." (by decide), longer ".." (by decide)]
  · rw [chars, List.mem_append]
    rintro (slash | slash)
    · exact whole slash
    · exact absurd (decimal _ slash) (by decide)

/-- A temporary directory stands in the directory that it was asked for in. -/
theorem location_temporary {stem : String} (long : 2 < stem.toList.length)
    (whole : '/' ∉ stem.toList) (number : Nat) (tree : FileTree) (root : String) :
    tree.locationOf (FilePath.join root (temporaryName stem number)) =
      tree.locationOf root ++ [temporaryName stem number] := by
  rw [locationOf, FilePath.place_join, place_temporaryName long whole,
    FilePath.Place.append_of_relative rfl, FilePath.Place.climb, locationOf]
  unfold FilePath.Place.location
  split
  · rfl
  · rw [List.append_assoc]

/-! ## Changes at one location -/

/-- Trees that differ in what stands at one location, and in the bytes of the file there, at
most. -/
structure OnlyAt (location : Location) (tree tree' : FileTree) : Prop where
  entries : ∀ l, l ≠ location → tree'.entry? l = tree.entry? l
  bytes : ∀ id, (∀ isProgram, tree'.entry? location ≠ some (.file id isProgram)) →
    tree'.bytes id = tree.bytes id

variable {location : Location}

theorem OnlyAt.refl (location : Location) (tree : FileTree) : OnlyAt location tree tree :=
  ⟨fun _ _ => rfl, fun _ _ => rfl⟩

theorem bytes_put_of_ne {id other : FileId} (h : other ≠ id) (tree : FileTree) (bytes : Bytes) :
    (tree.put id bytes).bytes other = tree.bytes other := by
  have hne : (other == id) = false := by simpa using h
  unfold FileTree.bytes put
  rw [List.lookup_cons, hne, lookup_filter h]

/-- The bytes of the file at a location may change. -/
theorem OnlyAt.put {id : FileId} {isProgram : Bool} (h : OnlyAt location tree tree')
    (stands : tree'.entry? location = some (.file id isProgram)) (bytes : Bytes) :
    OnlyAt location tree (tree'.put id bytes) := by
  refine ⟨h.entries, fun other away => ?_⟩
  have differ : other ≠ id := by
    rintro rfl
    exact away isProgram stands
  rw [bytes_put_of_ne differ]
  exact h.bytes other away

/-- A file that is made at a path stands at the location of the path's place, and nothing else
changes. -/
theorem createFile_onlyAt {id : FileId} (h : tree.createFile path = .ok (id, tree')) :
    OnlyAt ((place path).location tree.workingDirectory) tree tree' ∧
      ∃ isProgram, tree'.entry? ((place path).location tree.workingDirectory) =
        some (.file id isProgram) := by
  obtain ⟨here, name, hp, hn, -, made⟩ := createFile_spec h
  obtain ⟨-, -, above, blanks, e, hblanks, -, components, hwalk⟩ := findPlace_spec hp hn
  -- The components before the name lead to its directory, and the slashes after it nowhere else.
  have reached : here = above.foldl next (tree.start path) := by
    have := location_of_walk hwalk
    rw [List.foldl_append] at this
    simpa [Found.location, next] using this
  have place : (place path).location tree.workingDirectory = here ++ [name] := by
    rw [location_place, components, List.foldl_append, ← reached, List.foldl_cons,
      next_of_isProperName hn]
    exact foldl_next_blanks hblanks
  rw [place]
  rcases made with ⟨⟨isProgram, stands⟩, rfl⟩ | ⟨none, -, rfl⟩
  · exact ⟨(OnlyAt.refl _ _).put stands [], isProgram, stands⟩
  · have stands := entry_add_self none (.file id false)
    have added : OnlyAt (here ++ [name]) tree (tree.add (here ++ [name]) (.file id false)) :=
      ⟨fun l hl => entry_add_of_ne hl tree _, fun _ _ => rfl⟩
    exact ⟨added.put stands [], false, stands⟩

end FileTree

end InstallMedia
