import InstallMedia.Proofs.Ftp.Storage

/-!
# Servers that keep what is uploaded

One server accepts everything, keeps what is uploaded, and sends it when it is asked for.  Another
one declines to store under one name, and says more than it needs to when it is told a type of data.
Both conform and store.

## Main definitions

* `FtpServer.keeping`, `World.keeping`: the server that keeps everything
* `FtpServer.declining`, `World.declining`: the one that declines a name

## Main results

* `FtpServer.keeping_stores`, `FtpServer.declining_stores`
-/

namespace InstallMedia

open Connection

namespace FtpServer

/-! ## All is kept -/

/-- What is kept as more is told: the last command, and the bytes under a name. -/
def keep (path : String) : String × Option Bytes → FtpEvent → String × Option Bytes
  | (_, kept), .sent bytes => (commandOn bytes, kept)
  | (line, kept), .uploaded bytes => (line, if line = "STOR " ++ path then some bytes else kept)
  | state, .dialled _ _ => state

/-- The bytes that were uploaded last under a name. -/
def keptFiles (t : Transcript) (path : String) : Option Bytes := (t.foldl (keep path) ("", none)).2

/-- The name in a command for a download. -/
def downloaded? (line : String) : Option String :=
  (Split.strip? "RETR ".toList line.toList).map String.ofList

/-- What is kept under the name in the last command, if that begins a download. -/
def sendKept (t : Transcript) : Feed :=
  match t.getLast? with
  | some (.sent bytes) =>
    match downloaded? (commandOn bytes) with
    | some path => .ofBytes ((keptFiles t path).getD [])
    | none => []
  | _ => []

/-- The server that accepts everything, and keeps what is uploaded. -/
def keeping : FtpServer := { obliging [] with download := sendKept }

/-- What is answered to a type of data names no port. -/
theorem consents_namesNoPort : NamesNoPort consents := by
  intro t line r hl hr
  have plain := hl.isPlain
  have active : verb line ≠ "PASV" := by
    rcases hl with rfl | rfl <;> decide
  rw [asked, consents_sent, consent, if_neg plain.not_download, if_neg plain.not_upload,
    if_neg active] at hr
  obtain rfl := List.singleton_inj.mp hr
  decide

theorem keeping_stores : keeping.Stores consents keptFiles where
  conforms := { obliging_conforms [] with respond_eq := fun _ => rfl }
  stored t path bytes r last _ _ _ _ _ := by
    simp [keptFiles, keep, asked, commandOn_wire]
  kept t host port path := by
    simp [keptFiles, keep, asked]
  served t path bytes _ kept := by
    have named : downloaded? ("RETR " ++ path) = some path := by
      have front := Split.strip?_eq_some_iff.mpr (@String.toList_append "RETR " path)
      rw [downloaded?, front, Option.map_some, String.ofList_toList]
    have still : keptFiles (t ++ [asked ("RETR " ++ path)]) path = some bytes := by
      rw [← kept]
      simp [keptFiles, keep, asked]
    have sent : sendKept (t ++ [asked ("RETR " ++ path)]) = .ofBytes bytes := by
      simp only [sendKept, List.getLast?_concat, asked, commandOn_wire, named] at still ⊢
      rw [still, Option.getD_some]
    change (sendKept _).Delivers bytes
    rw [sent]
    exact Feed.received_ofBytes bytes

/-! ## One name is declined -/

/-- The command that was sent last. -/
def lastCommand (t : Transcript) : String := (t.foldl (keep "") ("", none)).1

theorem lastCommand_uploaded (t : Transcript) (line : String) (bytes : Bytes) :
    lastCommand (t ++ [asked line] ++ [.uploaded bytes]) = line := by
  simp [lastCommand, keep, asked, commandOn_wire]

section Declining

variable (name : String)

/-- What the server that declines a name answers to a command.  Of a type of data it says more than
it needs to. -/
def decline (line : String) : List WireReply :=
  if IsTypeCommand line then [saying 200 "Okay (127,0,0,1,4,0)"]
  else if line = "STOR " ++ name then [saying 553 "Not allowed"]
  else consent line

/-- What it answers.  Data that it has not accepted is not answered. -/
def declines (t : Transcript) : List WireReply :=
  match t.getLast? with
  | none => [saying 220 "Ready"]
  | some (.sent bytes) => decline name (commandOn bytes)
  | some (.dialled _ _) => []
  | some (.uploaded _) =>
    if lastCommand t = "STOR " ++ name then [] else [saying 226 "Transfer complete"]

/-- The server that keeps what is uploaded, but under one name, which it declines. -/
def declining : FtpServer :=
  { keeping with respond := fun t => (declines name t).flatMap WireReply.bytes }

/-- The bytes that it has under a name. -/
def declinedFiles (t : Transcript) (path : String) : Option Bytes :=
  if path = name then none else keptFiles t path

theorem declines_sent (t : Transcript) (line : String) :
    declines name (t ++ [.sent (wire line)]) = decline name line := by
  simp [declines, commandOn_wire]

theorem decline_wellFormed (line : String) : ∀ r ∈ decline name line, r.WellFormed := by
  intro r hr
  unfold decline at hr
  split at hr
  · obtain rfl := List.mem_singleton.mp hr
    exact saying_wellFormed (by decide) (by decide) (by simp)
  · split at hr
    · obtain rfl := List.mem_singleton.mp hr
      exact saying_wellFormed (by decide) (by decide) (by simp)
    · exact consent_wellFormed line r hr

/-- Transfers are answered as the obliging server answers them, but for the one that is declined. -/
theorem declines_transfer {line : String} (h : IsDownload line ∨ IsUpload line)
    (other : line ≠ "STOR " ++ name) (t : Transcript) :
    declines name (t ++ [.sent (wire line)]) = consents (t ++ [.sent (wire line)]) := by
  have untyped : ¬ IsTypeCommand line := fun typed =>
    h.elim typed.isPlain.not_download typed.isPlain.not_upload
  rw [declines_sent, consents_sent, decline, if_neg untyped, if_neg other]

theorem declines_declined (t : Transcript) :
    declines name (t ++ [asked ("STOR " ++ name)]) = [saying 553 "Not allowed"] := by
  have untyped : ¬ IsTypeCommand ("STOR " ++ name) := fun typed =>
    typed.isPlain.not_upload (isUpload_store name)
  rw [asked, declines_sent, decline, if_neg untyped, if_pos rfl]

theorem declining_conforms : (declining name).Conforms (declines name) where
  respond_eq _ := rfl
  wellFormed t r hr := by
    unfold declines at hr
    split at hr
    · obtain rfl := List.mem_singleton.mp hr
      exact saying_wellFormed (by decide) (by decide) (by simp)
    · exact decline_wellFormed name _ r hr
    · simp at hr
    · split at hr
      · simp at hr
      · obtain rfl := List.mem_singleton.mp hr
        exact saying_wellFormed (by decide) (by decide) (by simp)
  greeting := ⟨[], saying 220 "Ready", rfl, by simp, by decide, by decide⟩
  dialled t host port := by simp [declines]
  command t line plain := by
    rw [declines_sent, decline]
    split
    · exact ⟨_, rfl, by decide, by decide⟩
    · split
      · exact ⟨_, rfl, by decide, by decide⟩
      · rw [← consents_sent t]
        exact (obliging_conforms []).command t line plain
  download t line oneLine isDownload := by
    have other : line ≠ "STOR " ++ name := by
      rintro rfl
      simp [IsDownload, verb] at isDownload
    rw [declines_transfer name (Or.inl isDownload) other]
    exact (obliging_conforms []).download t line oneLine isDownload
  upload t line oneLine isUpload := by
    by_cases declined : line = "STOR " ++ name
    · rw [declined]
      exact ⟨_, declines_declined name t, Or.inl (by decide)⟩
    · rw [declines_transfer name (Or.inr isUpload) declined]
      exact (obliging_conforms []).upload t line oneLine isUpload
  uploaded t line bytes r oneLine isUpload answer preliminary := by
    have other : line ≠ "STOR " ++ name := by
      rintro rfl
      obtain rfl := List.singleton_inj.mp ((declines_declined name t).symm.trans answer)
      exact absurd preliminary (by decide)
    refine ⟨saying 226 "Transfer complete", ?_, by decide, by decide⟩
    have last := lastCommand_uploaded t line bytes
    rw [asked] at last
    simp only [declines, List.getLast?_concat, last, if_neg other]

/-- Nothing is answered to data under the name that is declined. -/
theorem declines_uploaded (t : Transcript) (bytes : Bytes) :
    declines name (t ++ [asked ("STOR " ++ name)] ++ [.uploaded bytes]) = [] := by
  simp only [declines, List.getLast?_concat, lastCommand_uploaded, if_pos]

theorem declining_stores : (declining name).Stores (declines name) (declinedFiles name) where
  conforms := declining_conforms name
  stored t path bytes r last oneLine answer preliminary _ _ := by
    have other : path ≠ name := by
      rintro rfl
      obtain rfl := List.singleton_inj.mp ((declines_declined path t).symm.trans answer)
      exact absurd preliminary (by decide)
    rw [declinedFiles, if_neg other]
    simp [keptFiles, keep, asked, commandOn_wire]
  kept t host port path := by
    rw [declinedFiles, keeping_stores.kept]
    rfl
  served t path bytes oneLine kept := by
    have other : path ≠ name := by
      rintro rfl
      simp [declinedFiles] at kept
    rw [declinedFiles, if_neg other] at kept
    exact keeping_stores.served t path bytes oneLine kept

end Declining

end FtpServer

/-- The world in which the server that keeps everything answers everywhere. -/
def World.keeping : World where
  mounter := Rehearsal.mounter {}
  network := { server _ _ _ := .ok .keeping, answer _ _ := none }

theorem World.keeping_stores :
    keeping.network.Stores (fun _ => FtpServer.consents) fun _ => FtpServer.keptFiles := by
  rintro past host port server found
  obtain rfl : FtpServer.keeping = server := Except.ok.inj found
  exact FtpServer.keeping_stores

/-- The world in which the server that declines a name answers everywhere. -/
def World.declining (name : String) : World where
  mounter := Rehearsal.mounter {}
  network := { server _ _ _ := .ok (.declining name), answer _ _ := none }

theorem World.declining_stores (name : String) :
    (declining name).network.Stores (fun _ => FtpServer.declines name)
      fun _ => FtpServer.declinedFiles name := by
  rintro past host port server found
  obtain rfl : FtpServer.declining name = server := Except.ok.inj found
  exact FtpServer.declining_stores name

end InstallMedia
