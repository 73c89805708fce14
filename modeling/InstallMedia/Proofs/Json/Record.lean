import InstallMedia.Proofs.Json.Shapes

/-!
# Reading records

An object with known members is gathered member by member, in whatever order they stand.  A member
with another name, a member given twice and a member that is required and does not stand are each
the end of it.

## Main definitions

* `Json.Shape.gather`, `Json.Shape.gathered`: what a shape makes of the members of an object
* `Json.Shape.Minds`: no member is passed over

## Main results

* `Json.Reads.record`: every spelling of an object is read as what its members come to
* `Json.toOption_document`: so is a text that holds it
-/

namespace InstallMedia.Json

variable {σ : Type}

namespace Shape

/-- What members come to, read one after another into a draft: `give` is what the value of a known
member makes of a draft. -/
def gather (shape : Shape σ) (give : String → σ → Datum → Option σ) :
    σ → List (String × Datum) → Option σ
  | draft, [] => some draft
  | draft, (name, d) :: more =>
    if name ∈ shape.names ∧ shape.has name draft = false then
      (give name draft d).bind fun draft => gather shape give draft more
    else none

/-- What the members of an object come to, if those that are required are among them. -/
def gathered (shape : Shape σ) (give : String → σ → Datum → Option σ)
    (ms : List (String × Datum)) : Option σ :=
  (shape.gather give shape.blank ms).filter fun draft =>
    shape.required.all fun name => shape.has name draft

/-- No member is passed over: the shape refuses members with other names, or there are none. -/
def Minds (shape : Shape σ) (ms : List (String × Datum)) : Prop :=
  shape.lenient = false ∨ ∀ m ∈ ms, m.1 ∈ shape.names

theorem Minds.tail {shape : Shape σ} {m : String × Datum} {ms : List (String × Datum)}
    (h : shape.Minds (m :: ms)) : shape.Minds ms :=
  h.imp id fun known m hm => known m (List.mem_cons_of_mem _ hm)

end Shape

namespace Reads

/-- Where an object ends, no member follows. -/
theorem hasMember_close {first : Bool} {s t : List Char} (h : Blanks s ('\x7d' :: t)) :
    Reads (hasMember first) s (some false) ('\x7d' :: t) := by
  apply Reads.bind (Reads.peekValue_cons h rfl)
  exact Reads.pure false _

/-- The first member follows the opening mark at once. -/
theorem hasMember_first {s t : List Char} (hb : Blanks s ('"' :: t)) :
    Reads (hasMember true) s (some true) ('"' :: t) := by
  apply Reads.bind (Reads.peekValue_cons hb rfl)
  exact Reads.bind (Reads.pure (some '"') _) (Reads.pure true _)

/-- Further members follow a comma. -/
theorem hasMember_comma {s t u : List Char} (hc : Blanks s (',' :: t)) (hb : Blanks t ('"' :: u)) :
    Reads (hasMember false) s (some true) ('"' :: u) := by
  apply Reads.bind (Reads.peekValue_cons hc rfl)
  apply Reads.bind (Reads.skip ',' t)
  exact Reads.bind (Reads.peekValue_cons hb rfl) (Reads.pure true _)

theorem colon {s t : List Char} (h : Blanks s (':' :: t)) : Reads Json.colon s (some ()) t := by
  apply Reads.bind (Reads.peekValue_cons h rfl)
  exact Reads.skip ':' t

theorem closeObject (t : List Char) : Reads Json.closeObject ('\x7d' :: t) (some ()) t := by
  apply Reads.bind (Reads.peekValue_cons (Blanks.none _) rfl)
  exact Reads.skip '\x7d' t

end Reads

theorem SpellsMember.exists_eq_cons {value : Datum → List Char → List Char → Prop}
    {m : String × Datum} {s t : List Char} (h : SpellsMember value m s t) : ∃ u, s = '"' :: u := by
  cases h with
  | named => exact ⟨_, rfl⟩

section Record

variable {shape : Shape σ} {give : String → σ → Datum → Option σ}
  (hread : ∀ name ∈ shape.names, ∀ draft, ReadsAs (shape.read name draft) (give name draft))

include hread

/-- One member: a name that is not known or not new ends the record. -/
theorem Reads.member (draft : σ) {name : String} {d : Datum} {s t : List Char}
    (minds : shape.lenient = false ∨ name ∈ shape.names)
    (h : SpellsMember Spells (name, d) s t) (ht : Ended t) :
    Reads (Json.member shape draft) s
      (if name ∈ shape.names ∧ shape.has name draft = false then give name draft d else none)
      t := by
  cases h with
  | named hname hc hb hd =>
    apply Reads.bind (Reads.skip '"' _)
    apply Reads.bind (Reads.text hname)
    by_cases known : name ∈ shape.names
    · rw [if_pos (List.contains_iff_mem.mpr known)]
      cases given : shape.has name draft with
      | true =>
        rw [if_pos rfl, if_neg fun h => by cases h.2]
        exact (Refuses.failUnplaced _).reads _ _
      | false =>
        rw [if_neg Bool.false_ne_true, if_pos ⟨known, rfl⟩]
        exact Reads.bind (Reads.colon hc) (hread name known draft hb hd ht)
    · rw [if_neg (fun h => known (List.contains_iff_mem.mp h)), minds.resolve_right known,
        if_neg Bool.false_ne_true, if_neg fun h => known h.1]
      exact (Refuses.failUnplaced _).reads _ _

/-- One member and the members after it. -/
theorem Reads.members_cons {draft : σ} {first : Bool} {m : String × Datum}
    {ms : List (String × Datum)} {fuel : Nat} {s t u v : List Char} (minds : shape.Minds (m :: ms))
    (more : Reads (hasMember first) s (some true) t) (hm : SpellsMember Spells m t u)
    (hu : Ended u)
    (rest : ∀ draft, Reads (Json.members shape false draft fuel) u (shape.gather give draft ms) v) :
    Reads (Json.members shape first draft (fuel + 1)) s (shape.gather give draft (m :: ms)) v := by
  obtain ⟨name, d⟩ := m
  apply Reads.bind more
  rw [if_pos rfl, Shape.gather]
  have read := Reads.member hread draft (minds.imp_right fun known => known _ List.mem_cons_self)
    hm hu
  split
  · rename_i hnew
    rw [if_pos hnew] at read
    cases hg : give name draft d with
    | none =>
      rw [hg] at read
      exact Reads.refused read
    | some draft' =>
      rw [hg] at read
      exact Reads.bind read (rest draft')
  · rename_i hnew
    rw [if_neg hnew] at read
    exact Reads.refused read

/-- The members after others, up to the mark that closes the object. -/
theorem Reads.members_follow {ms : List (String × Datum)} {s t : List Char}
    (hms : Follows (SpellsMember Spells) '\x7d' ms s t) (minds : shape.Minds ms) (draft : σ)
    {fuel : Nat} (enough : ms.length < fuel) :
    Reads (Json.members shape false draft fuel) s (shape.gather give draft ms) ('\x7d' :: t) := by
  induction hms generalizing draft fuel with
  | close hb =>
    obtain ⟨fuel, rfl⟩ := Nat.exists_eq_succ_of_ne_zero (Nat.ne_zero_of_lt enough)
    apply Reads.bind (Reads.hasMember_close hb)
    exact Reads.pure draft _
  | comma hc hb hm more ih =>
    obtain ⟨fuel, rfl⟩ := Nat.exists_eq_succ_of_ne_zero (Nat.ne_zero_of_lt enough)
    obtain ⟨w, rfl⟩ := hm.exists_eq_cons
    exact Reads.members_cons hread minds (Reads.hasMember_comma hc hb) hm
      (more.ended (.inr rfl)) fun draft => ih minds.tail draft (Nat.lt_of_succ_lt_succ enough)

/-- The members of an object, after its opening mark. -/
theorem Reads.members {ms : List (String × Datum)} {s t : List Char}
    (hms : Encloses (SpellsMember Spells) '\x7d' ms s t) (minds : shape.Minds ms) (draft : σ)
    {fuel : Nat} (enough : ms.length < fuel) :
    Reads (Json.members shape true draft fuel) s (shape.gather give draft ms) ('\x7d' :: t) := by
  obtain ⟨fuel, rfl⟩ := Nat.exists_eq_succ_of_ne_zero (Nat.ne_zero_of_lt enough)
  cases hms with
  | empty hb =>
    apply Reads.bind (Reads.hasMember_close hb)
    exact Reads.pure draft _
  | items hb hm more =>
    obtain ⟨w, rfl⟩ := hm.exists_eq_cons
    exact Reads.members_cons hread minds (Reads.hasMember_first hb) hm (more.ended (.inr rfl))
      fun draft => Reads.members_follow hread more minds.tail draft (Nat.lt_of_succ_lt_succ enough)

omit hread in
/-- Without a required member, a draft is not complete. -/
theorem Reads.complete (draft : σ) (s : List Char) :
    Reads (Json.complete shape draft) s
      (if (shape.required.all fun name => shape.has name draft) then some draft else none) s := by
  unfold Json.complete
  split
  · rename_i name hfind
    have missing : ¬ (shape.required.all fun name => shape.has name draft) = true := by
      intro hall
      have := List.all_eq_true.mp hall name (List.mem_of_find?_eq_some hfind)
      have lacking := List.find?_some hfind
      rw [this] at lacking
      cases lacking
    rw [if_neg missing]
    exact (Refuses.failUnplaced _).reads _ _
  · rename_i hfind
    have all : (shape.required.all fun name => shape.has name draft) = true := by
      rw [List.all_eq_true]
      intro name hname
      simpa using List.find?_eq_none.mp hfind name hname
    rw [if_pos all]
    exact Reads.pure draft s

/-- Every spelling of an object is read as what its members come to. -/
theorem Reads.record {ms : List (String × Datum)} {s t u : List Char} (minds : shape.Minds ms)
    (hb : Blanks s t) (h : Spells (.object ms) t u) :
    Reads (Json.record shape) s (shape.gathered give ms) u := by
  cases h with
  | @object _ s _ hms =>
    apply Reads.beginning hb rfl
    rw [if_neg (by decide), if_pos rfl]
    apply Reads.bind (Reads.skip '\x7b' _)
    refine Reads.closing (t := '\x7d' :: u) ?_ (Reads.closeObject u)
    have enough : ms.length < s.length + 1 := by
      have := hms.length_lt fun m _ s t h => h.length_lt (Spells.length_lt m.2)
      omega
    apply Reads.of_rest (x := fun s => Json.members shape true shape.blank (s.length + 1) >>=
      Json.complete shape)
    have read := Reads.members hread hms minds shape.blank enough
    unfold Shape.gathered
    cases hg : shape.gather give shape.blank ms with
    | none =>
      rw [hg] at read
      exact Reads.refused read
    | some draft =>
      rw [hg] at read
      exact Reads.bind read (Reads.complete draft _)

/-- A text that holds an object is read as what its members come to. -/
theorem toOption_document {ms : List (String × Datum)} (minds : shape.Minds ms) {s : String}
    (h : Holds (.object ms) s) :
    (document (Json.record shape) s).toOption = shape.gathered give ms := by
  obtain ⟨t, u, hb, hd, he⟩ := h
  have read := Reads.record hread minds hb hd
  refine (?_ : Reads _ s.toList (shape.gathered give ms) []) (.ofText s) rfl |>.1
  cases hg : shape.gathered give ms with
  | none =>
    rw [hg] at read
    exact Reads.refused read
  | some draft =>
    rw [hg] at read
    apply Reads.bind read
    exact Reads.bind (Reads.peekValue he (by rintro y ⟨⟩)) (Reads.pure draft [])

end Record

end InstallMedia.Json
