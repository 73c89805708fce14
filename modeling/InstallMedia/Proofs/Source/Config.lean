import InstallMedia.Proofs.Json.Record
import InstallMedia.Proofs.Json.Writing
import InstallMedia.Proofs.Mount.Candidate
import InstallMedia.Source.Config
import Mathlib.Data.List.Nodup

/-!
# Descriptions of sources and their JSON texts

A text that holds an object describes a source exactly if each member stands once and has a known
name, the address is among them, and the others say what the description says: what is not set may
be left out or null, and a source that is only read need not say so.

## Main definitions

* `SourceConfig.Describes`: the members of an object describe a source
* `SourceConfig.Fits`: a timeout has 64 bits

## Main results

* `SourceConfig.ofJson_eq_ok_iff`: what the text of an object is read as
* `SourceConfig.ofJson_toJson`: a description that is written is read as it was
-/

namespace InstallMedia

open Json (Datum)

namespace SourceConfig

/-- A timeout has 64 bits. -/
def Fits (c : SourceConfig) : Prop := ∀ n ∈ c.httpTimeout, n < Json.Numeral.bound

/-- What stands for a member that may be left out or null if it is not set. -/
def Stands (found value : Option Datum) : Prop :=
  match value with
  | some d => found = some d
  | none => found = none ∨ found = some .null

/-- The members of an object describe a source, in whatever order they stand. -/
structure Describes (c : SourceConfig) (ms : List (String × Datum)) : Prop where
  nodup : (ms.map Prod.fst).Nodup
  known : ∀ m ∈ ms, m.1 ∈ shape.names
  address : ms.lookup "address" = some (.text c.address)
  readOnly : ms.lookup "read_only" = some (.bool c.readOnly) ∨
    ms.lookup "read_only" = none ∧ c.readOnly = true
  fsTypes : Stands (ms.lookup "fs_types") (c.fsTypes.map fun ts => .list (ts.map .text))
  mountRoot : Stands (ms.lookup "mount_root") (c.mountRoot.map .text)
  httpTimeout : Stands (ms.lookup "http_timeout_secs") (c.httpTimeout.map .number)

/-! ## Reading members -/

namespace Draft

/-- What the value of a member makes of a draft. -/
def give (name : String) (draft : Draft) (d : Datum) : Option Draft :=
  match name with
  | "address" => d.text?.map fun s => { draft with address := some s }
  | "read_only" => d.bool?.map fun b => { draft with readOnly := some b }
  | "fs_types" =>
    (d.optional? (Datum.list? Datum.text?)).map fun ts => { draft with fsTypes := some ts }
  | "mount_root" => (d.optional? Datum.text?).map fun s => { draft with mountRoot := some s }
  | _ => (d.optional? Datum.unsigned?).map fun n => { draft with httpTimeout := some n }

theorem mem_names {name : String} (h : name ∈ shape.names) :
    name = "address" ∨ name = "read_only" ∨ name = "fs_types" ∨ name = "mount_root" ∨
      name = "http_timeout_secs" := by
  simpa [shape] using h

theorem readsAs_read {name : String} (h : name ∈ shape.names) (draft : Draft) :
    Json.ReadsAs (shape.read name draft) (give name draft) := by
  rcases mem_names h with rfl | rfl | rfl | rfl | rfl
  · exact (Json.readsAs_string _).bind_pure _
  · exact Json.readsAs_bool.bind_pure _
  · exact (Json.readsAs_string _).list.optional.bind_pure _
  · exact (Json.readsAs_string _).optional.bind_pure _
  · exact Json.readsAs_unsigned.optional.bind_pure _

/-- A draft has what has been found for its members, and nothing else. -/
structure Agrees (found : String → Option Datum) (draft : Draft) : Prop where
  address : (found "address").map Datum.text? = draft.address.map some
  readOnly : (found "read_only").map Datum.bool? = draft.readOnly.map some
  fsTypes : (found "fs_types").map (Datum.optional? (Datum.list? Datum.text?)) =
    draft.fsTypes.map some
  mountRoot : (found "mount_root").map (Datum.optional? Datum.text?) = draft.mountRoot.map some
  httpTimeout : (found "http_timeout_secs").map (Datum.optional? Datum.unsigned?) =
    draft.httpTimeout.map some

namespace Agrees

variable {found : String → Option Datum} {draft draft' : Draft} {name : String}

/-- The members that have been found are those that the draft has. -/
theorem has_eq (h : Agrees found draft) (hname : name ∈ shape.names) :
    shape.has name draft = (found name).isSome := by
  have isSome_eq : ∀ {α β : Type} {f : α → Option β} {x : Option α} {y : Option β},
      x.map f = y.map some → y.isSome = x.isSome := by
    intro α β f x y h
    rw [← Option.isSome_map (f := f), h, Option.isSome_map]
  rcases mem_names hname with rfl | rfl | rfl | rfl | rfl
  · exact isSome_eq h.address
  · exact isSome_eq h.readOnly
  · exact isSome_eq h.fsTypes
  · exact isSome_eq h.mountRoot
  · exact isSome_eq h.httpTimeout

/-- What has been found makes one draft at most. -/
theorem unique (h : Agrees found draft) (h' : Agrees found draft') : draft = draft' := by
  have same : ∀ {α : Type} {x : Option (Option α)} {a b : Option α},
      x = a.map some → x = b.map some → a = b := by
    intro α x a b ha hb
    exact Option.map_injective (fun _ _ h => Option.some.inj h) (ha.symm.trans hb)
  cases draft
  cases draft'
  rw [Draft.mk.injEq]
  exact ⟨same h.address h'.address, same h.readOnly h'.readOnly, same h.fsTypes h'.fsTypes,
    same h.mountRoot h'.mountRoot, same h.httpTimeout h'.httpTimeout⟩

/-- One member more is found, and read. -/
theorem give {d : Datum} (h : Agrees found draft) (hname : name ∈ shape.names)
    (hgive : Draft.give name draft d = some draft') :
    Agrees (Function.update found name (some d)) draft' := by
  rcases mem_names hname with rfl | rfl | rfl | rfl | rfl
  -- One field is what has just been read; the others are found as before.
  all_goals
    obtain ⟨value, hvalue, rfl⟩ := Option.map_eq_some_iff.mp hgive
    constructor <;>
      simp [hvalue, h.address, h.readOnly, h.fsTypes, h.mountRoot, h.httpTimeout]

/-- What has been found can be read. -/
theorem give_isSome {d : Datum} (h : Agrees found draft) (hname : name ∈ shape.names)
    (hd : found name = some d) (draft' : Draft) : (Draft.give name draft' d).isSome = true := by
  have readable : ∀ {α : Type} {f : Datum → Option α} {x : Option Datum} {y : Option α},
      x = some d → x.map f = y.map some → (f d).isSome = true := by
    intro α f x y hx h
    subst hx
    cases y with
    | none => cases h
    | some a =>
      rw [Option.some.inj h]
      rfl
  unfold Draft.give
  rcases mem_names hname with rfl | rfl | rfl | rfl | rfl
  · exact Option.isSome_map.trans (readable hd h.address)
  · exact Option.isSome_map.trans (readable hd h.readOnly)
  · exact Option.isSome_map.trans (readable hd h.fsTypes)
  · exact Option.isSome_map.trans (readable hd h.mountRoot)
  · exact Option.isSome_map.trans (readable hd h.httpTimeout)

end Agrees

/-- What a draft has been read from: each member stands once and has a known name. -/
structure Of (ms : List (String × Datum)) (draft : Draft) : Prop where
  nodup : (ms.map Prod.fst).Nodup
  known : ∀ m ∈ ms, m.1 ∈ shape.names
  agrees : Agrees (fun name => ms.lookup name) draft

theorem of_nil : Of [] shape.blank := ⟨List.nodup_nil, by simp, ⟨rfl, rfl, rfl, rfl, rfl⟩⟩

theorem lookup_eq_none_iff {ms : List (String × Datum)} {name : String} :
    ms.lookup name = none ↔ name ∉ ms.map Prod.fst := by
  rw [List.lookup_eq_none_iff, List.mem_map]
  constructor
  · rintro h ⟨m, hm, rfl⟩
    simpa using h m hm
  · intro h m hm
    rw [bne_iff_ne]
    rintro rfl
    exact h ⟨m, hm, rfl⟩

/-- A member with a new name is found where it stands, and the others are found as before. -/
theorem lookup_snoc {ms : List (String × Datum)} {name : String} (d : Datum)
    (h : ms.lookup name = none) :
    (fun other => (ms ++ [(name, d)]).lookup other) =
      Function.update (fun other => ms.lookup other) name (some d) := by
  funext other
  rw [List.lookup_append, Function.update_apply]
  split
  · rename_i hother
    subst hother
    simp [h]
  · rename_i hother
    simp [List.lookup_cons, beq_false_of_ne hother]

theorem Of.snoc {ms : List (String × Datum)} {draft draft' : Draft} {name : String} {d : Datum}
    (h : Of ms draft) (known : name ∈ shape.names) (absent : ms.lookup name = none)
    (hgive : give name draft d = some draft') : Of (ms ++ [(name, d)]) draft' where
  nodup := by
    rw [List.map_append, List.map_singleton, List.nodup_append]
    refine ⟨h.nodup, by simp, ?_⟩
    rintro other hother _ hname rfl
    rw [List.mem_singleton.mp hname] at hother
    exact lookup_eq_none_iff.mp absent hother
  known := by
    intro m hm
    rcases List.mem_append.mp hm with hm | hm
    · exact h.known m hm
    · rw [List.mem_singleton.mp hm]
      exact known
  agrees := by
    rw [lookup_snoc d absent]
    exact h.agrees.give known hgive

/-- Read after members, further members come to a draft exactly if that is what all of them make:
the induction is on the members to come, with those that have been read kept in `done`. -/
theorem gather_eq_some_iff {done more : List (String × Datum)} {draft draft' : Draft}
    (h : Of done draft) :
    shape.gather give draft more = some draft' ↔ Of (done ++ more) draft' := by
  induction more generalizing done draft with
  | nil =>
    rw [List.append_nil, Json.Shape.gather, Option.some.injEq]
    constructor
    · rintro rfl
      exact h
    · exact fun h' => h.agrees.unique h'.agrees
  | cons m more ih =>
    obtain ⟨name, d⟩ := m
    have new_iff : name ∈ shape.names →
        (shape.has name draft = false ↔ done.lookup name = none) := by
      intro known
      rw [h.agrees.has_eq known, Option.isSome_eq_false_iff, Option.isNone_iff_eq_none]
    have split : done ++ (name, d) :: more = done ++ [(name, d)] ++ more := by
      rw [List.append_assoc, List.singleton_append]
    rw [Json.Shape.gather, Option.ite_none_right_eq_some, Option.bind_eq_some_iff, split]
    constructor
    · rintro ⟨⟨known, new⟩, next, hnext, hmore⟩
      exact (ih (h.snoc known ((new_iff known).mp new) hnext)).mp hmore
    · intro h'
      have known : name ∈ shape.names := h'.known (name, d) (by simp)
      -- No member with this name has been read, as each stands once.
      have absent : done.lookup name = none := by
        have hnodup := h'.nodup
        rw [List.map_append, List.map_append, List.map_singleton, List.append_assoc,
          List.nodup_append] at hnodup
        rw [lookup_eq_none_iff]
        intro hname
        exact hnodup.2.2 name hname name (by simp) rfl
      have found : (done ++ [(name, d)] ++ more).lookup name = some d := by
        simp [List.lookup_append, absent]
      obtain ⟨next, hnext⟩ :=
        Option.isSome_iff_exists.mp (h'.agrees.give_isSome known found draft)
      exact ⟨⟨known, (new_iff known).mpr absent⟩, next, hnext,
        (ih (h.snoc known absent hnext)).mpr h'⟩

end Draft

/-! ## What is read -/

section Stands

variable {α : Type} {f : Datum → Option α} {write : α → Datum} {p : α → Prop}

theorem optional?_eq_some_iff (hf : ∀ d a, f d = some a ↔ d = write a ∧ p a)
    (hw : ∀ a, write a ≠ .null) {d : Datum} {value : Option α} :
    d.optional? f = some value ↔ Stands (some d) (value.map write) ∧ ∀ a ∈ value, p a := by
  cases value with
  | none =>
    cases d <;> simp [Datum.optional?, Stands]
  | some a =>
    have plain : d ≠ .null → (d.optional? f = some (some a) ↔ f d = some a) := by
      intro hd
      cases d with
      | null => exact absurd rfl hd
      | _ => simp [Datum.optional?]
    by_cases hd : d = .null
    · subst hd
      simp [Datum.optional?, Stands, (hw a).symm]
    · rw [plain hd, hf]
      simp [Stands]

/-- A member is read as what it stands for, whether it is left out, null or set. -/
theorem exists_field_iff (hf : ∀ d a, f d = some a ↔ d = write a ∧ p a)
    (hw : ∀ a, write a ≠ .null) {found : Option Datum} {value : Option α} :
    (∃ field : Option (Option α), found.map (Datum.optional? f) = field.map some ∧
      field.getD none = value) ↔ Stands found (value.map write) ∧ ∀ a ∈ value, p a := by
  cases found with
  | none =>
    constructor
    · rintro ⟨field, hfield, rfl⟩
      cases field with
      | none => exact ⟨.inl rfl, by simp⟩
      | some => cases hfield
    · rintro ⟨hstands, -⟩
      cases value with
      | none => exact ⟨none, rfl, rfl⟩
      | some => cases hstands
  | some d =>
    rw [← optional?_eq_some_iff hf hw]
    constructor
    · rintro ⟨field, hfield, rfl⟩
      cases field with
      | none => cases hfield
      | some field => exact Option.some.inj hfield
    · intro h
      exact ⟨some value, congrArg some h, rfl⟩

end Stands

/-! ### The members one by one -/

theorem texts_field_iff {found : Option Datum} {value : Option (List String)} :
    (∃ field : Option (Option (List String)),
      found.map (Datum.optional? (Datum.list? Datum.text?)) = field.map some ∧
      field.getD none = value) ↔
      Stands found (value.map fun ts => .list (ts.map .text)) ∧ ∀ ts ∈ value, True :=
  exists_field_iff (fun _ _ => by rw [Datum.texts?_eq_some_iff, and_true]) fun _ h => by cases h

theorem text_field_iff {found : Option Datum} {value : Option String} :
    (∃ field : Option (Option String), found.map (Datum.optional? Datum.text?) = field.map some ∧
      field.getD none = value) ↔ Stands found (value.map .text) ∧ ∀ s ∈ value, True :=
  exists_field_iff (fun _ _ => by rw [Datum.text?_eq_some_iff, and_true]) fun _ h => by cases h

theorem number_field_iff {found : Option Datum} {value : Option Nat} :
    (∃ field : Option (Option Nat), found.map (Datum.optional? Datum.unsigned?) = field.map some ∧
      field.getD none = value) ↔
      Stands found (value.map .number) ∧ ∀ n ∈ value, n < Json.Numeral.bound :=
  exists_field_iff (fun _ _ => Datum.unsigned?_eq_some_iff) fun _ h => by cases h

theorem address_field_iff {found : Option Datum} {address : String} :
    (∃ field : Option String, found.map Datum.text? = field.map some ∧ field.isSome = true ∧
      field.getD "" = address) ↔ found = some (.text address) := by
  constructor
  · rintro ⟨field, hfield, hset, rfl⟩
    obtain ⟨s, rfl⟩ := Option.isSome_iff_exists.mp hset
    obtain ⟨d, rfl, hd⟩ := Option.map_eq_some_iff.mp hfield
    exact congrArg some (Datum.text?_eq_some_iff.mp hd)
  · rintro rfl
    exact ⟨some address, rfl, rfl, rfl⟩

theorem readOnly_field_iff {found : Option Datum} {readOnly : Bool} :
    (∃ field : Option Bool, found.map Datum.bool? = field.map some ∧ field.getD true = readOnly) ↔
      found = some (.bool readOnly) ∨ found = none ∧ readOnly = true := by
  constructor
  · rintro ⟨field, hfield, rfl⟩
    cases field with
    | none => exact .inr ⟨Option.map_eq_none_iff.mp hfield, rfl⟩
    | some b =>
      obtain ⟨d, rfl, hd⟩ := Option.map_eq_some_iff.mp hfield
      exact .inl (congrArg some (Datum.bool?_eq_some_iff.mp hd))
  · rintro (rfl | ⟨rfl, rfl⟩)
    · exact ⟨some readOnly, rfl, rfl⟩
    · exact ⟨none, rfl, rfl⟩

/-- A draft of the members that makes a description is there exactly if they describe it. -/
theorem exists_draft_iff {c : SourceConfig} {ms : List (String × Datum)} :
    (∃ draft, Draft.Of ms draft ∧ draft.address.isSome = true ∧ ofDraft draft = c) ↔
      c.Describes ms ∧ c.Fits := by
  constructor
  · rintro ⟨draft, h, hset, rfl⟩
    have timeout := number_field_iff.mp ⟨_, h.agrees.httpTimeout, rfl⟩
    exact ⟨{
      nodup := h.nodup
      known := h.known
      address := address_field_iff.mp ⟨_, h.agrees.address, hset, rfl⟩
      readOnly := readOnly_field_iff.mp ⟨_, h.agrees.readOnly, rfl⟩
      fsTypes := (texts_field_iff.mp ⟨_, h.agrees.fsTypes, rfl⟩).1
      mountRoot := (text_field_iff.mp ⟨_, h.agrees.mountRoot, rfl⟩).1
      httpTimeout := timeout.1 }, timeout.2⟩
  · rintro ⟨h, hfits⟩
    obtain ⟨address, haddress, hset, eqAddress⟩ := address_field_iff.mpr h.address
    obtain ⟨readOnly, hreadOnly, eqReadOnly⟩ := readOnly_field_iff.mpr h.readOnly
    obtain ⟨fsTypes, hfsTypes, eqFsTypes⟩ := texts_field_iff.mpr ⟨h.fsTypes, fun _ _ => trivial⟩
    obtain ⟨mountRoot, hmountRoot, eqMountRoot⟩ :=
      text_field_iff.mpr ⟨h.mountRoot, fun _ _ => trivial⟩
    obtain ⟨httpTimeout, hhttpTimeout, eqHttpTimeout⟩ :=
      number_field_iff.mpr ⟨h.httpTimeout, hfits⟩
    refine ⟨⟨address, readOnly, fsTypes, mountRoot, httpTimeout⟩, ⟨h.nodup, h.known,
      ⟨haddress, hreadOnly, hfsTypes, hmountRoot, hhttpTimeout⟩⟩, hset, ?_⟩
    rw [ofDraft, eqAddress, eqReadOnly, eqFsTypes, eqMountRoot, eqHttpTimeout]

/-- What the text of an object is read as: the description that its members give, and no other. -/
theorem ofJson_eq_ok_iff {c : SourceConfig} {ms : List (String × Datum)} {s : String}
    (h : Json.Holds (.object ms) s) : ofJson s = .ok c ↔ c.Describes ms ∧ c.Fits := by
  have read := Json.toOption_document (fun _ => Draft.readsAs_read) (.inl rfl) h
  have gathered : ∀ draft, shape.gathered Draft.give ms = some draft ↔
      Draft.Of ms draft ∧ draft.address.isSome = true := by
    intro draft
    rw [Json.Shape.gathered, Option.filter_eq_some_iff, Draft.gather_eq_some_iff Draft.of_nil,
      List.nil_append]
    simp [shape, Draft.has]
  rw [← exists_draft_iff]
  constructor
  · intro hread
    unfold ofJson at hread
    split at hread
    · rename_i draft hdraft
      rw [hdraft] at read
      obtain ⟨hof, hset⟩ := (gathered draft).mp read.symm
      exact ⟨draft, hof, hset, Except.ok.inj hread⟩
    · cases hread
  · rintro ⟨draft, hof, hset, rfl⟩
    rw [(gathered draft).mpr ⟨hof, hset⟩, toOption_eq_some_iff] at read
    rw [ofJson, read]

/-- Where no description is read, the fault is one of the description. -/
theorem exists_fault_iff {s : String} :
    (∃ fault, ofJson s = .error (.config (.json fault))) ↔ ∀ c, ofJson s ≠ .ok c := by
  unfold ofJson
  cases Json.document (Json.record shape) s with
  | ok draft => simp
  | error fault => simp

/-! ## What is written -/

/-- The members that are written describe the source. -/
theorem exists_describes (c : SourceConfig) :
    ∃ ms, c.toValue.datum = .object ms ∧ c.Describes ms := by
  refine ⟨_, rfl, ?_⟩
  obtain ⟨address, readOnly, fsTypes, mountRoot, httpTimeout⟩ := c
  -- What is set is written, and what is not set is left out.
  cases fsTypes <;> cases mountRoot <;> cases httpTimeout <;> constructor <;>
    simp [member, Json.Value.memberData, Json.Value.datum, Json.Value.datum_texts, Stands, shape,
      List.lookup_cons]

theorem ofJson_written {c : SourceConfig} (h : c.Fits) : ofJson c.toJson = .ok c := by
  obtain ⟨ms, hms, hdescribes⟩ := c.exists_describes
  have held := Json.Value.holds_pretty c.toValue
  rw [hms] at held
  exact (ofJson_eq_ok_iff held).mpr ⟨hdescribes, h⟩

/-- A description that is written is read as it was, and so is every object whose members describe
the same source.  A member with another name, a member that stands twice and an address that is
missing are faults of the description.  A mount candidate that is written is read as it was, too. -/
theorem ofJson_toJson (c : SourceConfig) (h : c.Fits) (k : MountCandidate) :
    ofJson c.toJson = .ok c ∧
      (∀ ms s, c.Describes ms → Json.Holds (.object ms) s → ofJson s = .ok c) ∧
      (∀ left right name d s, name ∉ shape.names ∨ name ∈ (left ++ right).map Prod.fst →
        Json.Holds (.object (left ++ (name, d) :: right)) s →
          ∃ fault, ofJson s = .error (.config (.json fault))) ∧
      (∀ ms s, "address" ∉ ms.map Prod.fst → Json.Holds (.object ms) s →
        ∃ fault, ofJson s = .error (.config (.json fault))) ∧
      MountCandidate.ofJson k.toJson = .ok k := by
  refine ⟨ofJson_written h, ?_, ?_, ?_, k.ofJson_written⟩
  · intro ms s hdescribes hs
    exact (ofJson_eq_ok_iff hs).mpr ⟨hdescribes, h⟩
  · intro left right name d s hname hs
    rw [exists_fault_iff]
    intro c' hread
    obtain ⟨hdescribes, -⟩ := (ofJson_eq_ok_iff hs).mp hread
    rcases hname with unknown | repeated
    · exact unknown (hdescribes.known (name, d) (by simp))
    · have hnodup := hdescribes.nodup
      rw [List.map_append, List.map_cons, List.nodup_middle, ← List.map_append,
        List.nodup_cons] at hnodup
      exact hnodup.1 repeated
  · intro ms s missing hs
    rw [exists_fault_iff]
    intro c' hread
    obtain ⟨hdescribes, -⟩ := (ofJson_eq_ok_iff hs).mp hread
    have found := hdescribes.address
    rw [Draft.lookup_eq_none_iff.mpr missing] at found
    cases found

/-- Blanks and escapes do not matter. -/
theorem holds_reordered :
    Json.Holds (.object [("mount_root", .null), ("address", .text "ftp://h")])
      "\x7b\"mount_root\" : null,\n\"address\":\"ftp:\\/\\u002Fh\"\x7d" := by
  refine ⟨_, [], .none _, ?_, .none []⟩
  simp only [String.reduceToList]
  apply Json.Spells.object
  refine .items (.none _) (.named (Json.spellsText_escaped "mount_root".toList _)
    (.more rfl (.none _)) (.more rfl (.none _)) (.null _)) ?_
  refine .comma (.none _) (.more rfl (.none _))
    (.named (Json.spellsText_escaped "address".toList _) (.none _) (.none _) (.text ?_))
    (.close (.none _))
  -- The slashes of the address are escaped, the second one by its number.
  have plain : ∀ {c : Char} (t : List Char), c ≠ '"' ∧ c ≠ '\\' ∧ Json.isControl c = false →
      Json.SpellsChar c (c :: t) t := fun t h => .plain t h.1 h.2.1 h.2.2
  have slash : Json.fourDigits? ['0', '0', '2', 'F'] = some 0x2F := rfl
  simp only [String.reduceToList]
  exact .char (plain _ (by decide)) (.char (plain _ (by decide)) (.char (plain _ (by decide))
    (.char (plain _ (by decide)) (.char (.short _ rfl) (.char (.numeric _ slash rfl rfl)
      (.char (plain _ (by decide)) (.quote _)))))))

/-- Everything is set and read back; members stand out of order and null, with blanks and escapes;
and members are unknown, repeated or missing. -/
theorem ofJson_reordered :
    let c : SourceConfig := ⟨"\u00e9\"\n", false, some [], some "/", some 18446744073709551615⟩
    (c.Fits ∧ ofJson c.toJson = .ok c) ∧
      ofJson "\x7b\"mount_root\" : null,\n\"address\":\"ftp:\\/\\u002Fh\"\x7d" =
        .ok { address := "ftp://h" } ∧
      (∃ fault, ofJson (Json.Value.object
        [("address", .text "a"), ("mount", .bool true)]).compact = .error (.config (.json fault))) ∧
      (∃ fault, ofJson (Json.Value.object
        [("address", .text "a"), ("address", .text "a")]).compact =
          .error (.config (.json fault))) ∧
      (∃ fault, ofJson (Json.Value.object [("read_only", .bool true)]).compact =
        .error (.config (.json fault))) ∧
      MountCandidate.ofJson (MountCandidate.toJson ⟨"vfat", ["ro"]⟩) = .ok ⟨"vfat", ["ro"]⟩ := by
  intro c
  have hc : c.Fits := by
    rintro n ⟨⟩
    decide
  have hplain : Fits { address := "ftp://h" } := by
    rintro n ⟨⟩
  have hdescribes : Describes { address := "ftp://h" }
      [("mount_root", .null), ("address", .text "ftp://h")] := by
    constructor <;> simp [Stands, shape, List.lookup_cons]
  obtain ⟨-, hread, hmember, hmissing, hcandidate⟩ :=
    ofJson_toJson { address := "ftp://h" } hplain ⟨"vfat", ["ro"]⟩
  refine ⟨⟨hc, (ofJson_toJson c hc ⟨"vfat", ["ro"]⟩).1⟩, hread _ _ hdescribes holds_reordered,
    ?_, ?_, ?_, hcandidate⟩
  · exact hmember [("address", .text "a")] [] "mount" (.bool true) _ (.inl (by simp [shape]))
      (Json.Value.holds_compact _)
  · exact hmember [("address", .text "a")] [] "address" (.text "a") _ (.inr (by simp))
      (Json.Value.holds_compact _)
  · exact hmissing _ _ (by simp [Json.Value.memberData]) (Json.Value.holds_compact _)

end SourceConfig

end InstallMedia
