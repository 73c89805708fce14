import InstallMedia.Files.Tree
import InstallMedia.Proofs.Attempt
import InstallMedia.Proofs.Text.Split

/-!
# Trees of files: the laws

Every entry of a tree stands in a directory.  A path that was just made a directory leads to an
empty directory, and a path that leads to an empty directory can be taken away.

## Main definitions

* `FileTree.IsTree`: every entry stands in a directory
* `FileTree.IsVacant`: a path leads to an empty directory
* `FileTree.KeepsDirectories`: a change of files

## Main results

* `FileTree.walk_append_of_present`: a walk goes on from where its first part leads
* `FileTree.find_of_findPlace`: a path leads to the entry that is made at its place
* `FileTree.made_of_makeDirectory`, `FileTree.made_of_makeTemporary`: where a directory is made
* `FileTree.makeTemporary_spec`: a new temporary directory is empty
* `FileTree.removeDirectory_of_isVacant`: an empty directory can be taken away, and is gone then
* `FileTree.createFile_keepsDirectories`: files are made in directories
-/

namespace InstallMedia.FileTree

variable {tree tree' : FileTree} {location here : Location} {entry : Entry}

/-- Every entry stands in a directory. -/
def IsTree (tree : FileTree) : Prop :=
  ∀ p ∈ tree.entries, tree.isDirectoryAt p.1.dropLast = true

instance (tree : FileTree) : Decidable tree.IsTree :=
  inferInstanceAs (Decidable (∀ p ∈ tree.entries, tree.isDirectoryAt p.1.dropLast = true))

/-- A path leads to an empty directory. -/
def IsVacant (tree : FileTree) (path : String) : Prop :=
  ∃ location, tree.find path = .ok (.present location .directory) ∧
    tree.isEmptyAt location = true

instance (tree : FileTree) (path : String) : Decidable (tree.IsVacant path) :=
  decidable_of_iff
    ((match tree.find path with
      | .ok (.present location .directory) => tree.isEmptyAt location
      | _ => false) = true) <| by
    unfold IsVacant
    split <;> simp_all

/-! ## Entries -/

@[simp] theorem entry_nil (tree : FileTree) : tree.entry? [] = some .directory := if_pos rfl

theorem isDirectoryAt_iff : tree.isDirectoryAt location = true ↔
    tree.entry? location = some .directory := by
  simp [isDirectoryAt]

theorem lookup_append_of_some {l : List (Location × Entry)} {p : Location × Entry}
    (h : l.lookup location = some entry) : (l ++ [p]).lookup location = some entry := by
  rw [List.lookup_append, h]
  rfl

/-- An entry that is added hides none. -/
theorem entry_add_of_some {new : Location} {e : Entry} (h : tree.entry? location = some entry) :
    FileTree.entry? (tree.add new e) location = some entry := by
  unfold entry? at h ⊢
  split
  · rwa [if_pos ‹_›] at h
  · rw [if_neg ‹_›] at h
    exact lookup_append_of_some h

/-- Where nothing is added, everything is as it was. -/
theorem entry_add_of_ne {new : Location} (h : location ≠ new) (tree : FileTree) (e : Entry) :
    FileTree.entry? (tree.add new e) location = tree.entry? location := by
  unfold entry? add
  have hne : (location == new) = false := by simpa using h
  simp [List.lookup_append, List.lookup_cons, hne]

/-- An entry that is added where none stood is found. -/
theorem entry_add_self (h : tree.entry? location = none) (e : Entry) :
    FileTree.entry? (tree.add location e) location = some e := by
  unfold entry? at h ⊢
  split
  · rw [if_pos ‹_›] at h
    cases h
  · rw [if_neg ‹_›] at h
    simp [add, List.lookup_append, h]

theorem lookup_filter {κ ν : Type} [BEq κ] [LawfulBEq κ] [DecidableEq κ] {gone key : κ}
    {l : List (κ × ν)} (h : key ≠ gone) : (l.filter (·.1 ≠ gone)).lookup key = l.lookup key := by
  induction l with
  | nil => rfl
  | cons p l ih =>
    by_cases hp : p.1 = gone
    · have hne : (key == p.1) = false := by simp [hp, h]
      rw [List.filter_cons_of_neg (by simp [hp]), ih, List.lookup_cons, hne]
    · rw [List.filter_cons_of_pos (by simp [hp]), List.lookup_cons, List.lookup_cons, ih]

/-- Where nothing was taken away, everything is as it was. -/
theorem entry_drop {gone : Location} (h : location ≠ gone) :
    FileTree.entry? (tree.drop gone) location = tree.entry? location := by
  unfold entry? drop
  rw [lookup_filter h]

/-- Nothing stands where something was taken away, unless it was the root, which stays. -/
theorem entry_drop_self (h : location ≠ []) :
    FileTree.entry? (tree.drop location) location = none := by
  have gone : ∀ p ∈ (tree.drop location).entries, p.1 ≠ location := by
    intro p hp
    simpa using (List.mem_filter.mp hp).2
  unfold entry?
  rw [if_neg h, List.lookup_eq_none_iff]
  intro p hp
  simpa using (gone p hp).symm

/-! ## Walks -/

/-- Where one component leads. -/
def next (here : Location) (name : String) : Location :=
  if name = "" ∨ name = "." then here
  else if name = ".." then here.dropLast
  else here ++ [name]

/-- A name that can be that of a new entry leads to that entry. -/
theorem next_of_isProperName {name : String} (h : isProperName name = true) (here : Location) :
    next here name = here ++ [name] := by
  obtain ⟨⟨h1, h2⟩, h3⟩ : (name ≠ "" ∧ name ≠ ".") ∧ name ≠ ".." := by
    simpa [isProperName] using h
  simp [next, h1, h2, h3]

/-- Whether one component leads to an entry. -/
def Enters (tree : FileTree) (here : Location) (name : String) : Prop :=
  tree.isDirectoryAt here = true ∧
    (name = "" ∨ name = "." ∨ name = ".." ∨
      FilePath.size name ≤ FilePath.componentLimit ∧
        ∃ entry, tree.entry? (here ++ [name]) = some entry)

/-- A component that leads to an entry is one step of a walk. -/
theorem walk_of_enters {name : String} (h : tree.Enters here name) (rest : List String) :
    tree.walk here (name :: rest) = tree.walk (next here name) rest := by
  obtain ⟨directory, h⟩ := h
  rw [walk, directory, next]
  by_cases blank : name = "" ∨ name = "."
  · simp [blank]
  by_cases up : name = ".."
  · simp [up]
  obtain ⟨short, entry, stands⟩ : FilePath.size name ≤ FilePath.componentLimit ∧
      ∃ entry, tree.entry? (here ++ [name]) = some entry := by
    rcases h with h | h | h | h
    · exact absurd (Or.inl h) blank
    · exact absurd (Or.inr h) blank
    · exact absurd h up
    · exact h
  simp [blank, up, Nat.not_lt.mpr short, stands]

/-- A walk that finds an entry goes from entry to entry. -/
theorem enters_of_walk {name : String} {rest : List String}
    (h : tree.walk here (name :: rest) = .ok (.present location entry)) :
    tree.Enters here name := by
  rw [walk] at h
  cases directory : tree.isDirectoryAt here with
  | false => simp [directory] at h
  | true =>
    refine ⟨directory, ?_⟩
    by_cases blank : name = "" ∨ name = "."
    · exact blank.elim Or.inl fun h => Or.inr (Or.inl h)
    by_cases up : name = ".."
    · exact Or.inr (Or.inr (Or.inl up))
    simp only [directory, blank, up, Bool.not_true, Bool.false_eq_true, if_false] at h
    split at h
    · cases h
    · rename_i short
      split at h
      · rename_i stands
        exact Or.inr (Or.inr (Or.inr
          ⟨Nat.le_of_not_lt short, Option.isSome_iff_exists.mp stands⟩))
      · split at h <;> cases h

/-- More entries hide none. -/
def Extends (tree' tree : FileTree) : Prop :=
  ∀ l e, tree.entry? l = some e → tree'.entry? l = some e

/-- The same entries hide none. -/
theorem extends_of_entries (same : tree'.entries = tree.entries) : tree'.Extends tree := by
  intro l e stands
  unfold entry? at stands ⊢
  rwa [same]

theorem Extends.isDirectoryAt (more : tree'.Extends tree) (h : tree.isDirectoryAt location = true) :
    tree'.isDirectoryAt location = true := by
  rw [isDirectoryAt_iff] at h ⊢
  exact more location _ h

theorem Extends.enters (more : tree'.Extends tree) {name : String} (h : tree.Enters here name) :
    tree'.Enters here name := by
  refine ⟨more.isDirectoryAt h.1, ?_⟩
  rcases h.2 with h | h | h | ⟨short, e, stands⟩
  · exact Or.inl h
  · exact Or.inr (Or.inl h)
  · exact Or.inr (Or.inr (Or.inl h))
  · exact Or.inr (Or.inr (Or.inr ⟨short, e, more _ e stands⟩))

/-- A walk that finds an entry finds it among more entries. -/
theorem Extends.walk (more : tree'.Extends tree) {names : List String}
    (h : tree.walk here names = .ok (.present location entry)) :
    tree'.walk here names = .ok (.present location entry) := by
  induction names generalizing here with
  | nil =>
    rw [FileTree.walk] at h ⊢
    cases he : tree.entry? here with
    | none => simp [he] at h
    | some e => simpa [he, more here e he] using h
  | cons name rest ih =>
    have enters := enters_of_walk h
    rw [walk_of_enters enters] at h
    rw [walk_of_enters (more.enters enters)]
    exact ih h

/-- A walk goes on from the directory to which its first part leads. -/
theorem walk_append_of_present {names : List String}
    (h : tree.walk here (names ++ [""]) = .ok (.present location entry)) (more : List String) :
    tree.isDirectoryAt location = true ∧
      tree.walk here (names ++ more) = tree.walk location more := by
  induction names generalizing here with
  -- The blank component is a directory's own: it asks that the first part leads to one.
  | nil =>
    have enters := enters_of_walk h
    have stays : next here "" = here := by simp [next]
    rw [List.nil_append, walk_of_enters enters, stays, walk, isDirectoryAt_iff.mp enters.1] at h
    obtain ⟨rfl, -⟩ : here = location ∧ _ := by simpa using h
    exact ⟨enters.1, rfl⟩
  | cons name rest ih =>
    have enters := enters_of_walk h
    rw [List.cons_append, walk_of_enters enters] at h ⊢
    exact ih h

/-- Slashes after a directory lead to it. -/
theorem walk_blanks (hd : tree.isDirectoryAt here = true) {names : List String}
    (h : ∀ name ∈ names, name = "") : tree.walk here names = .ok (.present here .directory) := by
  induction names with
  | nil => rw [walk, isDirectoryAt_iff.mp hd]
  | cons name rest ih =>
    obtain rfl := h name (by simp)
    rw [walk_of_enters ⟨hd, Or.inl rfl⟩]
    exact ih fun n hn => h n (by simp [hn])

/-- A path leads to an entry when a walk along its components does. -/
theorem find_eq_present_iff {path : String} : tree.find path = .ok (.present location entry) ↔
    checkPath path = .ok () ∧ tree.walk (tree.start path) (FilePath.components path) =
      .ok (.present location entry) := by
  rw [find]
  cases checkPath path with
  | error fault => simp [bind, Except.bind]
  | ok _ =>
    cases tree.walk (tree.start path) (FilePath.components path) <;>
      simp [bind, Except.bind, Except.mapError]

/-- A path that leads to an entry leads to it among more entries. -/
theorem Extends.find (more : tree'.Extends tree)
    (workingDirectory : tree'.workingDirectory = tree.workingDirectory) {path : String}
    (h : tree.find path = .ok (.present location entry)) :
    tree'.find path = .ok (.present location entry) := by
  obtain ⟨checked, reaches⟩ := find_eq_present_iff.mp h
  have start : tree'.start path = tree.start path := by
    rw [FileTree.start, FileTree.start, workingDirectory]
  refine find_eq_present_iff.mpr ⟨checked, ?_⟩
  rw [start]
  exact more.walk reaches

/-! ## New entries -/

theorem extends_add (location : Location) (e : Entry) : (tree.add location e).Extends tree :=
  fun _ _ hl => entry_add_of_some hl

/-- A new entry in a directory keeps the tree. -/
theorem IsTree.add (h : tree.IsTree) (hd : tree.isDirectoryAt here = true) (name : String)
    (e : Entry) :
    (tree.add (here ++ [name]) e).IsTree := by
  have more := tree.extends_add (here ++ [name]) e
  intro p hp
  rcases List.mem_append.mp hp with hp | hp
  · exact more.isDirectoryAt (h p hp)
  · obtain rfl : p = (here ++ [name], e) := by simpa using hp
    rw [List.dropLast_concat]
    exact more.isDirectoryAt hd

/-- Nothing stands in a new directory. -/
theorem IsTree.isEmptyAt_add (h : tree.IsTree) {name : String}
    (hn : tree.entry? (here ++ [name]) = none) :
    (tree.add (here ++ [name]) .directory).isEmptyAt (here ++ [name]) = true := by
  rw [isEmptyAt, Bool.not_eq_true', List.any_eq_false]
  rintro ⟨l, e⟩ hp
  simp only [Bool.and_eq_true, decide_eq_true_eq, not_and]
  intro _ hl
  rcases List.mem_append.mp hp with hp | hp
  -- What stood below it before would have stood in nothing.
  · have := h _ hp
    rw [isDirectoryAt_iff, hl, hn] at this
    cases this
  · obtain ⟨rfl, -⟩ : l = here ++ [name] ∧ _ := by simpa using hp
    rw [List.dropLast_concat] at hl
    simpa using congrArg List.length hl

/-- What it means that a path has a place for a new entry. -/
theorem findPlace_spec {path name : String} {slashed : Bool}
    (h : tree.findPlace path = .ok (here, name, slashed)) (hn : isProperName name = true) :
    checkPath path = .ok () ∧ tree.isDirectoryAt here = true ∧
      ∃ (above blanks : List String) (e : Entry), (∀ b ∈ blanks, b = "") ∧
        (slashed = false → blanks = []) ∧ FilePath.components path = above ++ name :: blanks ∧
        tree.walk (tree.start path) (above ++ [""]) = .ok (.present here e) := by
  obtain ⟨blanks, hblanks, hcomponents⟩ :=
    Split.eq_trimEnd_append (· = "") (FilePath.components path)
  rw [findPlace] at h
  cases hc : checkPath path with
  | error fault => simp [hc, bind, Except.bind] at h
  | ok _ =>
    simp only [hc, bind, Except.bind, splitLast] at h
    split at h
    · rename_i place e hwalk
      obtain ⟨rfl, rfl, rfl⟩ : place = here ∧ _ = name ∧ _ = slashed := by simpa using h
      refine ⟨rfl, (walk_append_of_present hwalk []).1, _, blanks, e, by simpa using hblanks,
        fun unslashed => ?_, ?_, hwalk⟩
      -- Without slashes after the name, all components are named.
      · have named := congrArg List.length hcomponents
        rw [List.length_append] at named
        simp only [decide_eq_false_iff_not] at unslashed
        exact List.length_eq_zero_iff.mp (by omega)
      cases hl : (Split.trimEnd (fun x => decide (x = "")) (FilePath.components path)).getLast? with
      | none => simp [hl, isProperName] at hn
      | some last =>
        have named := List.dropLast_append_getLast? last hl
        rw [Option.getD_some, ← List.singleton_append, ← List.append_assoc, named]
        exact hcomponents
    · simp at h
    · simp at h

/-- A path with a place for a new entry leads to the entry once it stands there.  Slashes after the
name ask for a directory. -/
theorem find_of_findPlace {path name : String} {slashed : Bool}
    (hp : tree.findPlace path = .ok (here, name, slashed)) (hn : isProperName name = true)
    (short : FilePath.size name ≤ FilePath.componentLimit) (more : tree'.Extends tree)
    (workingDirectory : tree'.workingDirectory = tree.workingDirectory)
    (stands : tree'.entry? (here ++ [name]) = some entry)
    (slashes : slashed = true → entry = .directory) :
    tree'.find path = .ok (.present (here ++ [name]) entry) := by
  obtain ⟨checked, directory, above, blanks, e, hblanks, unslashed, components, hwalk⟩ :=
    findPlace_spec hp hn
  have start : tree'.start path = tree.start path := by
    rw [FileTree.start, FileTree.start, workingDirectory]
  -- The walk to the place goes on, among more entries, to the entry.
  have enters : tree'.Enters here name :=
    ⟨more.isDirectoryAt directory, Or.inr (Or.inr (Or.inr ⟨short, entry, stands⟩))⟩
  refine find_eq_present_iff.mpr ⟨checked, ?_⟩
  rw [start, components, (walk_append_of_present (more.walk hwalk) _).2, walk_of_enters enters,
    next_of_isProperName hn]
  cases slashed with
  | true =>
    obtain rfl := slashes rfl
    exact walk_blanks (isDirectoryAt_iff.mpr stands) hblanks
  | false => rw [unslashed rfl, walk, stands]

/-- A directory is made in a directory where nothing stood, and then the path leads to it. -/
theorem made_of_makeDirectory {path : String} (hm : tree.makeDirectory path = .ok tree') :
    ∃ here name, tree.isDirectoryAt here = true ∧ tree.entry? (here ++ [name]) = none ∧
      tree' = tree.add (here ++ [name]) .directory ∧
      tree'.find path = .ok (.present (here ++ [name]) .directory) := by
  rw [makeDirectory] at hm
  cases hp : tree.findPlace path with
  | error fault => simp [hp, bind, Except.bind] at hm
  | ok found =>
    obtain ⟨here, name, slashed⟩ := found
    simp only [hp, bind, Except.bind] at hm
    split at hm
    · cases hm
    split at hm
    · cases hm
    rename_i proper short
    have hn : isProperName name = true := by simpa using proper
    cases he : tree.entry? (here ++ [name]) with
    | some e => simp [he] at hm
    | none =>
      obtain rfl : tree.add (here ++ [name]) .directory = tree' := by simpa [he] using hm
      obtain ⟨-, directory, -⟩ := findPlace_spec hp hn
      refine ⟨here, name, directory, he, rfl, ?_⟩
      exact find_of_findPlace hp hn (Nat.le_of_not_lt short) (tree.extends_add _ _) rfl
        (entry_add_self he .directory) fun _ => rfl

/-- A temporary directory is made where nothing stood, under a name of its own below the root. -/
theorem made_of_makeTemporary {root stem path : String}
    (hm : tree.makeTemporary root stem = .ok (path, tree')) :
    ∃ here name number, path = FilePath.join (tree.absolute root) (temporaryName stem number) ∧
      tree.isDirectoryAt here = true ∧ tree.entry? (here ++ [name]) = none ∧
      tree' = { tree.add (here ++ [name]) .directory with temporaries := number + 1 } ∧
      tree'.find path = .ok (.present (here ++ [name]) .directory) := by
  delta makeTemporary at hm
  dsimp only at hm
  split at hm
  · rename_i made hmade
    obtain ⟨here, name, directory, vacant, rfl, found⟩ := made_of_makeDirectory hmade
    obtain ⟨rfl, rfl⟩ : _ = path ∧ _ = tree' := by
      simpa only [Except.ok.injEq, Prod.mk.injEq] using hm
    let made := tree.add (here ++ [name]) .directory
    -- The number of directories made so far does not matter for where a path leads.
    have same (n : Nat) : Extends { made with temporaries := n } made := extends_of_entries rfl
    have leads (n : Nat) := Extends.find (same n) rfl found
    exact ⟨here, name, _, rfl, directory, vacant, rfl, leads _⟩
  · cases hm

/-- A new temporary directory is empty. -/
theorem makeTemporary_spec (h : tree.IsTree) {root stem path : String}
    (hm : tree.makeTemporary root stem = .ok (path, tree')) :
    tree'.IsTree ∧ tree'.IsVacant path := by
  obtain ⟨here, name, number, -, directory, vacant, rfl, found⟩ := made_of_makeTemporary hm
  exact ⟨h.add directory name .directory, here ++ [name], found, h.isEmptyAt_add vacant⟩

/-- An empty directory can be taken away.  Then nothing stands in its place, unless that is the
root, which stays; all else is as it was, and what is left is a tree. -/
theorem removeDirectory_of_isVacant (h : tree.IsTree) {path : String} (hv : tree.IsVacant path) :
    ∃ location tree', tree.find path = .ok (.present location .directory) ∧
      tree.removeDirectory path = .ok tree' ∧ tree'.IsTree ∧
      tree'.workingDirectory = tree.workingDirectory ∧
      (location ≠ [] → tree'.entry? location = none) ∧
      ∀ l, l ≠ location → tree'.entry? l = tree.entry? l := by
  obtain ⟨location, found, empty⟩ := hv
  refine ⟨location, tree.drop location, found, ?_, ?_, rfl, entry_drop_self,
    fun l hl => entry_drop hl⟩
  · rw [removeDirectory, found]
    simp [bind, Except.bind, empty]
  · intro p hp
    obtain ⟨hp, hne⟩ : p ∈ tree.entries ∧ p.1 ≠ location := by simpa [drop] using hp
    have parent := h p hp
    -- Nothing stood in what was taken away, unless it was the root, which stays.
    by_cases hl : p.1.dropLast = location
    · have root : p.1 = [] := by
        rw [isEmptyAt, Bool.not_eq_true', List.any_eq_false] at empty
        have := empty p hp
        simpa [hl] using this
      rw [root]
      rfl
    · rw [isDirectoryAt_iff] at parent ⊢
      rwa [entry_drop hl]

/-! ## Files -/

/-- A change of files: all directories stay, none is made, and a tree stays one. -/
structure KeepsDirectories (tree tree' : FileTree) : Prop where
  isTree : tree.IsTree → tree'.IsTree
  isDirectoryAt : ∀ location, tree'.isDirectoryAt location = tree.isDirectoryAt location
  workingDirectory : tree'.workingDirectory = tree.workingDirectory

theorem KeepsDirectories.refl (tree : FileTree) : tree.KeepsDirectories tree :=
  ⟨id, fun _ => rfl, rfl⟩

/-- Bytes do not matter for where entries stand. -/
theorem KeepsDirectories.put (h : tree.KeepsDirectories tree') (id : FileId) (bytes : Bytes) :
    tree.KeepsDirectories (tree'.put id bytes) :=
  ⟨h.isTree, h.isDirectoryAt, h.workingDirectory⟩

theorem KeepsDirectories.append (h : tree.KeepsDirectories tree') (id : FileId) (more : Bytes) :
    tree.KeepsDirectories (tree'.append id more) :=
  h.put id _

/-- A file that is made has a place, where it stood before or nothing did. -/
theorem createFile_spec {path : String} {id : FileId}
    (h : tree.createFile path = .ok (id, tree')) :
    ∃ here name, tree.findPlace path = .ok (here, name, false) ∧ isProperName name = true ∧
      FilePath.size name ≤ FilePath.componentLimit ∧
      ((∃ isProgram, tree.entry? (here ++ [name]) = some (.file id isProgram)) ∧
          tree' = tree.put id [] ∨
        tree.entry? (here ++ [name]) = none ∧ id = tree.freshId ∧
          tree' = (tree.add (here ++ [name]) (.file id false)).put id []) := by
  unfold createFile at h
  obtain ⟨⟨here, name, slashed⟩, hp, h⟩ := bind_eq_ok_iff.mp h
  dsimp only at h
  split at h
  · cases h
  split at h
  · cases h
  rename_i proper short
  obtain ⟨hn, rfl⟩ : isProperName name = true ∧ slashed = false := by simpa using proper
  refine ⟨here, name, hp, hn, Nat.le_of_not_lt short, ?_⟩
  split at h
  · cases h
  · rename_i isProgram stands
    obtain ⟨rfl, rfl⟩ : _ = id ∧ _ = tree' := by simpa only [Except.ok.injEq, Prod.mk.injEq] using h
    exact Or.inl ⟨⟨isProgram, stands⟩, rfl⟩
  · rename_i none
    obtain ⟨rfl, rfl⟩ : _ = id ∧ _ = tree' := by simpa only [Except.ok.injEq, Prod.mk.injEq] using h
    exact Or.inr ⟨none, rfl, rfl⟩

/-- A file is made in a directory. -/
theorem createFile_keepsDirectories {path : String} {id : FileId}
    (hc : tree.createFile path = .ok (id, tree')) : tree.KeepsDirectories tree' := by
  obtain ⟨here, name, hp, hn, -, ⟨-, rfl⟩ | ⟨none, -, rfl⟩⟩ := createFile_spec hc
  · exact (KeepsDirectories.refl tree).put _ _
  · obtain ⟨-, directory, -⟩ := findPlace_spec hp hn
    refine KeepsDirectories.put ⟨fun h => h.add directory name _, fun l => ?_, rfl⟩ _ _
    -- Where the file is made there was no directory before, and there is none now.
    by_cases place : l = here ++ [name]
    · rw [place, FileTree.isDirectoryAt, FileTree.isDirectoryAt, entry_add_self none, none]
      rfl
    · rw [FileTree.isDirectoryAt, FileTree.isDirectoryAt, entry_add_of_ne place]

end InstallMedia.FileTree
