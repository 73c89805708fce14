import InstallMedia.Proofs.Files.Reach
import InstallMedia.Proofs.Stream.Copy
import InstallMedia.Source.Basic

/-!
# Copying files to files

A file is made before anything is copied to it, and making a file that is there empties it.  So a
copy gives the file at one path the bytes of the file at another one, unless both paths lead to the
same file, whose bytes are then lost.

## Main definitions

* `FileTree.Made`: what making a file at a path does
* `FileTree.Gains`: what adding bytes to a file does
* `FileTree.Transferred`: what copying from one path to another comes to

## Main results

* `FileTree.createFile_made`, `FileTree.copy_gains`
* `FileTree.transferred_of_copy`: the bytes of a copy
-/

namespace InstallMedia.FileTree

variable {tree made : FileTree} {path : String} {id : FileId}

/-! ## Opening -/

/-- A path that can be opened leads to the entry that is opened. -/
theorem openFile_eq_ok_iff {file : OpenFile} : tree.openFile path = .ok file ↔
    ∃ location entry, tree.find path = .ok (.present location entry) ∧ file = entry.opened := by
  constructor
  · intro h
    unfold openFile at h
    obtain ⟨found, hf, h⟩ := bind_eq_ok_iff.mp h
    cases found with
    | present location entry =>
      refine ⟨location, entry, hf, ?_⟩
      cases entry with
      | directory => exact (Except.ok.inj h).symm
      | file id isProgram => exact (Except.ok.inj h).symm
    | absent location => cases h
  · rintro ⟨location, entry, hf, rfl⟩
    unfold openFile
    refine bind_eq_ok_iff.mpr ⟨_, hf, ?_⟩
    cases entry <;> rfl

/-- What could be opened is opened among more entries. -/
theorem Extends.openFile (more : made.Extends tree)
    (workingDirectory : made.workingDirectory = tree.workingDirectory) {file : OpenFile}
    (h : tree.openFile path = .ok file) : made.openFile path = .ok file := by
  obtain ⟨location, entry, hf, rfl⟩ := openFile_eq_ok_iff.mp h
  exact openFile_eq_ok_iff.mpr ⟨location, entry, more.find workingDirectory hf, rfl⟩

/-! ## Identities -/

/-- The identity of a file that stands somewhere is taken. -/
theorem mem_identities_of_entry {location : Location} {isProgram : Bool}
    (h : tree.entry? location = some (.file id isProgram)) : id ∈ tree.identities := by
  unfold entry? at h
  split at h
  · cases h
  · obtain ⟨before, after, entries, -⟩ := List.lookup_eq_some_iff.mp h
    have stands : (location, Entry.file id isProgram) ∈ tree.entries := by
      rw [entries]
      exact List.mem_append_right _ List.mem_cons_self
    exact List.mem_append_right _ (List.mem_filterMap.mpr ⟨_, stands, rfl⟩)

theorem freshId_notMem (tree : FileTree) : tree.freshId ∉ tree.identities := by
  intro h
  have greatest : tree.freshId ≤ (0 :: tree.identities).max?.getD 0 :=
    List.le_max?_getD_of_mem (List.mem_cons_of_mem 0 h)
  rw [List.max?_cons', Option.getD_some] at greatest
  exact absurd greatest (Nat.not_succ_le_self _)

/-! ## Bytes -/

theorem bytes_put_self (tree : FileTree) (id : FileId) (bytes : Bytes) :
    (tree.put id bytes).bytes id = bytes := by
  simp [FileTree.bytes, put]

/-- What making a file at a path does: the path leads to it, it is empty, it was there before or has
an identity of its own, and everything else is as it was. -/
structure Made (tree made : FileTree) (path : String) (id : FileId) : Prop where
  opens : made.openFile path = .ok (.file id 0)
  empty : made.bytes id = []
  known : tree.openFile path = .ok (.file id 0) ∨ id ∉ tree.identities
  others : ∀ other, other ≠ id → made.bytes other = tree.bytes other
  more : made.Extends tree
  workingDirectory : made.workingDirectory = tree.workingDirectory

theorem createFile_made (h : tree.createFile path = .ok (id, made)) : tree.Made made path id := by
  obtain ⟨here, name, hp, hn, short, ⟨⟨isProgram, stands⟩, rfl⟩ | ⟨none, rfl, rfl⟩⟩ :=
    createFile_spec h
  -- The file is there: a tree with other bytes has the same entries.
  · have same : (tree.put id []).Extends tree := fun _ _ h => h
    have opened (now : FileTree) (more : now.Extends tree)
        (workingDirectory : now.workingDirectory = tree.workingDirectory) :
        now.openFile path = .ok (.file id 0) :=
      openFile_eq_ok_iff.mpr ⟨_, _, find_of_findPlace hp hn short more workingDirectory
        (more _ _ stands) nofun, rfl⟩
    exact {
      opens := opened _ same rfl
      empty := bytes_put_self _ _ _
      known := Or.inl (opened tree (fun _ _ h => h) rfl)
      others := fun other hne => bytes_put_of_ne hne tree []
      more := same
      workingDirectory := rfl }
  · have more := tree.extends_add (here ++ [name]) (.file tree.freshId false)
    have stands := entry_add_self none (.file tree.freshId false)
    exact {
      opens := openFile_eq_ok_iff.mpr
        ⟨_, _, find_of_findPlace hp hn short more rfl stands nofun, rfl⟩
      empty := bytes_put_self _ _ _
      known := Or.inr tree.freshId_notMem
      others := fun other hne => bytes_put_of_ne hne _ []
      more := more
      workingDirectory := rfl }

/-- What adding bytes to a file does. -/
structure Gains (tree now : FileTree) (id : FileId) (gained : Bytes) : Prop where
  bytes : now.bytes id = tree.bytes id ++ gained
  others : ∀ other, other ≠ id → now.bytes other = tree.bytes other
  entries : now.entries = tree.entries
  workingDirectory : now.workingDirectory = tree.workingDirectory

namespace Gains

variable {now : FileTree} {first gained : Bytes}

theorem refl (tree : FileTree) (id : FileId) : tree.Gains tree id [] :=
  ⟨(List.append_nil _).symm, fun _ _ => rfl, rfl, rfl⟩

theorem append (h : Gains (tree.append id first) now id gained) :
    tree.Gains now id (first ++ gained) := by
  refine ⟨?_, fun other hne => ?_, h.entries, h.workingDirectory⟩
  · rw [h.bytes, FileTree.append, bytes_put_self, List.append_assoc]
  · rw [h.others other hne, FileTree.append, bytes_put_of_ne hne]

theorem openFile (h : tree.Gains now id gained) {file : OpenFile}
    (opened : tree.openFile path = .ok file) : now.openFile path = .ok file :=
  (extends_of_entries h.entries).openFile h.workingDirectory opened

end Gains

/-! ## Copies -/

/-- Bytes that are written to a file are added to it. -/
theorem writeAll_fileSink (id : FileId) (b : UInt8) (more : Bytes) (tree : FileTree) :
    (Source.fileSink id).writeAll (b :: more) tree = (.ok (), tree.append id (b :: more)) := by
  rw [Sink.writeAll]
  simp [Source.fileSink, Sink.writeAll]

/-- What is received from a feed is copied to a file.  The copy fails as the feed ends. -/
theorem run_fileSink (id : FileId) (copied : Nat) (feed : Feed) (tree : FileTree) :
    tree.Gains (Copy.run (Source.fileSink id) copied feed tree).sink id
        (Listing.received feed).1 ∧
      (Copy.run (Source.fileSink id) copied feed tree).result =
        match (Listing.received feed).2 with
        | none => .ok (copied + (Listing.received feed).1.length)
        | some cause => .error cause := by
  induction feed generalizing copied tree with
  | nil => exact ⟨Gains.refl tree id, rfl⟩
  | cons event rest ih =>
    cases event with
    | chunk bytes =>
      cases bytes with
      -- An empty piece is the end, whatever comes after it.
      | nil => exact ⟨Gains.refl tree id, rfl⟩
      | cons b bytes =>
        obtain ⟨gains, result⟩ := ih (copied + (b :: bytes).length) (tree.append id (b :: bytes))
        rw [Copy.run_of_written (writeAll_fileSink id b bytes tree), Listing.received]
        · refine ⟨gains.append, ?_⟩
          rw [List.length_append, ← Nat.add_assoc]
          exact result
        · simp
    | fault cause =>
      rw [Copy.run, Listing.received]
      split
      -- An interruption is passed over.
      · exact ih copied tree
      · exact ⟨Gains.refl tree id, rfl⟩

/-- What is received from a feed is copied to a file.  The copy fails as the feed ends. -/
theorem copy_fileSink (id : FileId) (feed : Feed) (tree : FileTree) :
    tree.Gains (copy (Source.fileSink id) feed tree).sink id (Listing.received feed).1 ∧
      (copy (Source.fileSink id) feed tree).result =
        match (Listing.received feed).2 with
        | none => .ok (Listing.received feed).1.length
        | some cause => .error cause := by
  have h := run_fileSink id 0 (feed.limited (copyBlock - 1)) tree
  rwa [Feed.received_limited, Nat.zero_add] at h

/-- Copying a file to a file does not fail. -/
theorem copy_feed_file (id read : FileId) (offset : Nat) (tree files : FileTree) :
    ∃ n, (copy (Source.fileSink id) (tree.feed (.file read offset)) files).result = .ok n := by
  obtain ⟨-, result⟩ := copy_fileSink id (tree.feed (.file read offset)) files
  rw [feed, Feed.received_ofBytes] at result
  exact ⟨_, result⟩

/-- What copying the file at one path to another path leaves: both paths lead to files, to the same
one if they did so before.  The file that was written has the bytes of the one that was read, or
none if it is the same file.  No other file has other bytes than before. -/
structure Transferred (tree now : FileTree) (source target : String) (read written : FileId) :
    Prop where
  opened : tree.openFile source = .ok (.file read 0)
  kept : now.openFile source = .ok (.file read 0)
  created : ∃ made, tree.createFile target = .ok (written, made)
  leads : now.openFile target = .ok (.file written 0)
  same_iff : written = read ↔ tree.openFile target = .ok (.file read 0)
  bytes : now.bytes written = if written = read then [] else tree.bytes read
  others : ∀ id, id ≠ written → now.bytes id = tree.bytes id

/-- Bytes are lost exactly when both paths led to the same file, and it had any. -/
theorem Transferred.bytes_eq_iff {now : FileTree} {source target : String} {read written : FileId}
    (h : tree.Transferred now source target read written) :
    now.bytes written = tree.bytes read ↔
      tree.openFile target ≠ .ok (.file read 0) ∨ tree.bytes read = [] := by
  rw [h.bytes, ne_eq, ← h.same_iff]
  by_cases same : written = read
  · rw [if_pos same, or_iff_right (not_not_intro same)]
    exact eq_comm
  · rw [if_neg same]
    exact iff_of_true rfl (Or.inl same)

/-- A copy from a file that was opened to one that was then made. -/
theorem transferred_of_copy {source target : String} {file : OpenFile} {written : FileId} {n : Nat}
    (opened : tree.openFile source = .ok file)
    (hc : tree.createFile target = .ok (written, made))
    (copied : (copy (Source.fileSink written) (made.feed file) made).result = .ok n) :
    ∃ read, tree.Transferred (copy (Source.fileSink written) (made.feed file) made).sink source
      target read written := by
  obtain ⟨gains, result⟩ := copy_fileSink written (made.feed file) made
  have h := createFile_made hc
  cases file with
  | directory =>
    -- Reading a directory fails.
    rw [result] at copied
    cases copied
  | file read offset =>
    obtain ⟨location, entry, hf, hentry⟩ := openFile_eq_ok_iff.mp opened
    obtain ⟨rfl, taken⟩ : offset = 0 ∧ read ∈ tree.identities := by
      have stands := entry_of_walk (find_eq_present_iff.mp hf).2
      cases entry with
      | directory => cases hentry
      | file id isProgram =>
        cases hentry
        exact ⟨rfl, mem_identities_of_entry stands⟩
    refine ⟨read, {
      opened := opened
      kept := gains.openFile (h.more.openFile h.workingDirectory opened)
      created := ⟨made, hc⟩
      leads := gains.openFile h.opens
      same_iff := ⟨?_, ?_⟩
      bytes := ?_
      others := fun id hne => (gains.others id hne).trans (h.others id hne) }⟩
    · rintro rfl
      exact h.known.resolve_right fun fresh => fresh taken
    · intro leads
      have := (h.more.openFile h.workingDirectory leads).symm.trans h.opens
      cases this
      rfl
    · rw [gains.bytes, h.empty, feed, Feed.received_ofBytes, List.nil_append, List.drop_zero]
      split
      · rename_i same
        rw [← same, h.empty]
      · rename_i differ
        exact h.others read fun same => differ same.symm

end InstallMedia.FileTree
