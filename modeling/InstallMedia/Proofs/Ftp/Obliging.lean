import InstallMedia.Proofs.Ftp.Data
import InstallMedia.Mount.Rehearsed
import InstallMedia.Source.Ftp

/-!
# An obliging server

A server that accepts everything it is asked for.  It conforms, whatever its data is, and carries
data if its data is text.

## Main definitions

* `FtpServer.obliging`: the server whose downloads are all the same feed
* `World.obliging`: the world in which it answers everywhere
* `FtpSource.mirror`, `FtpSource.startedMirror`: a site on it, before and after its first start

## Main results

* `FtpServer.obliging_conforms`, `FtpServer.obliging_carriesData`
-/

namespace InstallMedia

namespace FtpServer

open Connection

/-- The command on a line. -/
def commandOn (bytes : Bytes) : String :=
  match Utf8.decodeChars bytes with
  | .ok cs => String.ofList cs.dropLast.dropLast
  | .error _ => ""

theorem commandOn_wire (line : String) : commandOn (wire line) = line := by
  have chars : Utf8.decodeChars (wire line) = .ok (line.toList ++ ['\r', '\n']) := by
    rw [Utf8.decodeChars_eq_ok_iff]
    simp [wire, lineEnd, Utf8.encode, Utf8.encodeChars, Utf8.encodeChar]
  have text : (line.toList ++ ['\r', '\n']).dropLast.dropLast = line.toList := by
    rw [← List.singleton_append, ← List.append_assoc, List.dropLast_concat, List.dropLast_concat]
  rw [commandOn, chars]
  simp only [text, String.ofList_toList]

/-- A reply on one line. -/
def saying (code : Nat) (text : String) : WireReply := { code, last := some (Utf8.encode text) }

/-- What the obliging server answers to a command. -/
def consent (line : String) : List WireReply :=
  if IsDownload line then
    [saying 150 "Opening data connection", saying 226 "Transfer complete"]
  else if IsUpload line then [saying 150 "Opening data connection"]
  else if verb line = "PASV" then [saying 227 "Entering Passive Mode (127,0,0,1,4,0)"]
  else [saying 200 "Okay"]

/-- What the obliging server answers. -/
def consents (t : Transcript) : List WireReply :=
  match t.getLast? with
  | none => [saying 220 "Ready"]
  | some (.sent bytes) => consent (commandOn bytes)
  | some (.dialled _ _) => []
  | some (.uploaded _) => [saying 226 "Transfer complete"]

/-- The server that accepts everything, and whose downloads are all the same. -/
def obliging (data : Feed) : FtpServer where
  respond t := (consents t).flatMap WireReply.bytes
  silence _ := none
  blocked _ := none
  refused _ := none
  download _ := data
  clogged _ _ := none
  accepts _ _ offered := offered.length

theorem saying_wellFormed {code : Nat} {text : String} (h : 100 ≤ code) (h' : code < 600)
    (ht : '\n' ∉ text.toList) : (saying code text).WellFormed where
  le_code := h
  code_lt := h'
  feed_notMem_before := by simp [saying]
  feed_notMem_last := by simpa [saying] using Lines.feed_notMem_encode.mpr ht
  not_closes := by simp [saying]

theorem consent_wellFormed (line : String) : ∀ r ∈ consent line, r.WellFormed := by
  intro r hr
  unfold consent at hr
  split at hr
  · rcases List.mem_pair.mp hr with rfl | rfl
    all_goals exact saying_wellFormed (by decide) (by decide) (by simp)
  · split at hr
    · obtain rfl := List.mem_singleton.mp hr
      exact saying_wellFormed (by decide) (by decide) (by simp)
    · split at hr
      all_goals
        obtain rfl := List.mem_singleton.mp hr
        exact saying_wellFormed (by decide) (by decide) (by simp)

theorem consents_sent (t : Transcript) (line : String) :
    consents (t ++ [.sent (wire line)]) = consent line := by
  simp [consents, commandOn_wire]

/-- The obliging server conforms. -/
theorem obliging_conforms (data : Feed) : (obliging data).Conforms consents where
  respond_eq _ := rfl
  wellFormed t r hr := by
    unfold consents at hr
    split at hr
    · obtain rfl := List.mem_singleton.mp hr
      exact saying_wellFormed (by decide) (by decide) (by simp)
    · exact consent_wellFormed _ r hr
    · simp at hr
    · obtain rfl := List.mem_singleton.mp hr
      exact saying_wellFormed (by decide) (by decide) (by simp)
  greeting := ⟨[], saying 220 "Ready", rfl, by simp, by decide, by decide⟩
  dialled t host port := by simp [consents]
  command t line hl := by
    rw [consents_sent, consent, if_neg hl.not_download, if_neg hl.not_upload]
    split
    · exact ⟨_, rfl, by decide, by decide⟩
    · exact ⟨_, rfl, by decide, by decide⟩
  download t line _ hd := by
    rw [consents_sent, consent, if_pos hd]
    exact Or.inr ⟨_, _, rfl, by decide, by decide, by decide⟩
  upload t line _ hu := by
    have not_download : ¬ IsDownload line := by
      have stor : verb line = "STOR" := hu
      simp [IsDownload, stor]
    rw [consents_sent, consent, if_neg not_download, if_pos hu]
    exact ⟨_, rfl, Or.inr (by decide)⟩
  uploaded t line bytes r _ _ _ _ :=
    ⟨saying 226 "Transfer complete", by simp [consents], by decide, by decide⟩

/-- The obliging server carries data, if it has text to send. -/
theorem obliging_carriesData {data : Feed} (sound : data.IsSound) (text : String)
    (h : Utf8.decode (Listing.received data).1 = .ok text) : (obliging data).CarriesData where
  listing _ _ := ⟨sound, text, h⟩
  takes _ _ _ h := by simp [obliging] at h
  progress _ _ _ something := List.length_pos_iff.mpr something

end FtpServer

/-- The network on which the obliging server answers everywhere. -/
def Network.obliging (data : Feed) : Network where
  server _ _ _ := .ok (.obliging data)
  answer _ _ := none

/-- The world in which it does. -/
def World.obliging (data : Feed) : World where
  mounter := Rehearsal.mounter {}
  network := .obliging data

namespace Connection

/-- A connection on which the obliging server has greeted. -/
def greeted (data : Feed) : Connection where
  server := .obliging data
  peer := "mirror"
  transcript := []
  unread := []
  heard := [(0, (FtpServer.saying 220 "Ready").reply)]
  state := .idle

theorem greeted_inStep (data : Feed) : (greeted data).InStep FtpServer.consents := by
  refine ⟨[], ⟨by simp, rfl, ?_⟩, by simp, rfl⟩
  simp [greeted, Transcript.ledger_nil, FtpServer.consents, WireReply.labelled,
    Transcript.commands]

end Connection

namespace FtpSource

/-- A site on the obliging server. -/
def mirror : FtpSource where
  base := "ftp://mirror/pub/"
  address := ⟨"ftp", none, none, some "mirror", none, "/pub/"⟩
  readOnly := false

/-- The site once it has been started. -/
def startedMirror (data : Feed) : FtpSource := { mirror with session := .held (.greeted data) 0 }

end FtpSource

end InstallMedia
