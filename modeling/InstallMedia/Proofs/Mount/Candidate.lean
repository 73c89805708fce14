import InstallMedia.Mount.Candidate
import InstallMedia.Proofs.Json.Record
import InstallMedia.Proofs.Json.Writing

/-!
# Mount candidates and their JSON texts

## Main results

* `MountCandidate.ofJson_written`: a candidate that is written is read as it was
-/

namespace InstallMedia

open Json (Datum)

namespace MountCandidate

/-- What the value of a member makes of a candidate being read. -/
def Draft.give (name : String) (draft : Draft) (d : Datum) : Option Draft :=
  match name with
  | "fstype" => d.text?.map fun s => { draft with fstype := some s }
  | _ => (d.list? Datum.text?).map fun ss => { draft with options := some ss }

theorem Draft.readsAs_read {name : String} (h : name ∈ shape.names) (draft : Draft) :
    Json.ReadsAs (shape.read name draft) (give name draft) := by
  have cases : name = "fstype" ∨ name = "options" := by simpa [shape] using h
  rcases cases with rfl | rfl
  · exact (Json.readsAs_string _).bind_pure _
  · exact (Json.readsAs_string _).list.bind_pure _

/-- Both members that are written are known, and each is read as it was. -/
theorem gathered_written (c : MountCandidate) :
    shape.gathered Draft.give [("fstype", .text c.fstype), ("options", .list (c.options.map .text))]
      = some ⟨some c.fstype, some c.options⟩ := by
  have options : (Datum.list (c.options.map .text)).list? Datum.text? = some c.options :=
    Datum.texts?_eq_some_iff.mpr rfl
  simp [Json.Shape.gathered, Json.Shape.gather, shape, Draft.give, Datum.text?, options]

theorem ofJson_written (c : MountCandidate) : ofJson c.toJson = .ok c := by
  have held := Json.Value.holds_compact
    (.object [("fstype", .text c.fstype), ("options", .texts c.options)])
  have read := Json.toOption_document (fun _ => Draft.readsAs_read)
    (.inr (by simp [Json.Value.memberData, shape])) held
  rw [Json.Value.memberData, Json.Value.memberData, Json.Value.memberData, Json.Value.datum_texts,
    Json.Value.datum, gathered_written, toOption_eq_some_iff] at read
  rw [ofJson, toJson, read]
  rfl

end MountCandidate

end InstallMedia
