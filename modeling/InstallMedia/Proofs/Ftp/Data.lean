import InstallMedia.Proofs.Ftp.Dialogue
import InstallMedia.Proofs.Stream.Course

/-!
# Data connections that work

A data connection works when what comes over it ends without a fault, when listings are text, and
when of all that is given to it some is taken.  Then a listing can be read, and a feed without a
fault can be uploaded.

## Main definitions

* `FtpServer.CarriesData`: a server whose data connections work

## Main results

* `Listing.names_of_isSound`: a sound feed that is text is a list of names
* `FtpServer.CarriesData.uplink_willing`: such a connection is a sink that never fails
* `FtpServer.CarriesData.not_listingFails`, `FtpServer.CarriesData.not_uploadFails`
-/

namespace InstallMedia

/-- A server whose data connections work. -/
structure FtpServer.CarriesData (server : FtpServer) : Prop where
  /-- A listing is sent to its end, and is text. -/
  listing : ∀ t directory,
    let command := Connection.wire (Connection.listingCommand directory)
    let feed := server.download (t ++ [.sent command])
    feed.IsSound ∧ ∃ text, Utf8.decode (Listing.received feed).1 = .ok text
  /-- Sending more is at most interrupted. -/
  takes : ∀ t sent cause, server.clogged t sent = some cause → cause.isInterrupted = true
  /-- Of what is offered some is taken. -/
  progress : ∀ t sent offered, offered ≠ [] → 0 < server.accepts t sent offered

/-! ## Listings -/

namespace Listing

theorem namesOf_of_text {lines : List Bytes} (h : ∀ raw ∈ lines, ∃ line,
    Utf8.decodeChars raw = .ok line) : ∃ names, namesOf none lines = .ok names := by
  induction lines with
  | nil => exact ⟨[], rfl⟩
  | cons raw lines ih =>
    obtain ⟨line, hline⟩ := h raw (by simp)
    obtain ⟨names, hnames⟩ := ih fun r hr => h r (by simp [hr])
    refine ⟨if name line = [] then names else String.ofList (name line) :: names, ?_⟩
    rw [namesOf, hline, hnames]
    · rfl
    · simp

/-- A sound feed that is text is a list of names. -/
theorem names_of_isSound {feed : Feed} (sound : feed.IsSound) {text : String}
    (h : Utf8.decode (received feed).1 = .ok text) : ∃ list, names feed = .ok list := by
  obtain ⟨cs, hcs⟩ : ∃ cs, Utf8.decodeChars (received feed).1 = .ok cs := by
    cases hd : Utf8.decodeChars (received feed).1 with
    | ok cs => exact ⟨cs, rfl⟩
    | error fault => simp [Utf8.decode, hd, Except.map] at h
  rw [Utf8.decodeChars_eq_ok_iff] at hcs
  have ending : received feed = (Utf8.encodeChars cs, none) := Prod.ext hcs sound
  rw [names, ending]
  exact namesOf_of_text fun raw hraw => Lines.decodeChars_of_mem_split hraw

end Listing

/-! ## Uploads -/

namespace FtpServer.CarriesData

open Connection

variable {server : FtpServer}

/-- A data connection that works is a sink that never fails. -/
theorem uplink_willing (hd : server.CarriesData) (t : Transcript) : (uplink server t).Willing where
  write sent bytes something := by
    have accepted : 0 < (bytes.take (server.accepts t sent bytes)).length := by
      have progress := hd.progress t sent bytes something
      have nonempty := List.length_pos_iff.mpr something
      rw [List.length_take]
      omega
    have answer : ((uplink server t).write sent bytes).1 =
        .ok (bytes.take (server.accepts t sent bytes)).length := by
      simp only [uplink]
      cases clogged : server.clogged t sent with
      | none => rfl
      | some cause => simp only [hd.takes t sent cause clogged, if_true]
    rw [answer]
    exact accepted
  flush _ := rfl

theorem not_listingFails (hd : server.CarriesData) {c : Connection} (hc : c.server = server) :
    ¬ ListingFails c := by
  rintro ⟨t, directory, fault, ht, hfault⟩
  obtain ⟨sound, text, htext⟩ := hd.listing t directory
  obtain ⟨names, hnames⟩ := Listing.names_of_isSound sound htext
  rw [ht, hc, hnames] at hfault
  cases hfault

theorem not_uploadFails (hd : server.CarriesData) {c : Connection} (hc : c.server = server)
    {feed : Feed} (sound : feed.IsSound) : ¬ UploadFails feed c := by
  rintro ⟨t, bytes, fault, -, hfault⟩
  obtain ⟨n, hn⟩ := (hd.uplink_willing t).copy_result sound [] id
  rw [hc, hn] at hfault
  cases hfault

end FtpServer.CarriesData

end InstallMedia
