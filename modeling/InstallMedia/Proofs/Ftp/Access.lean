import InstallMedia.Proofs.Ftp.Late
import InstallMedia.Proofs.Ftp.Listing
import InstallMedia.Proofs.Ftp.Passive

/-!
# Names that are looked for

A name is looked for in the listing of its directory.  On a session in step, with a conforming
server, it is found exactly if the server grants the listing and the listing has the name, by itself
or with its directory; whatever the server refuses, the session is ready for the next command.  On a
late session no name is found.

## Main definitions

* `FtpSource.Asks`: the command that lists a name, and what the name is in the listing
* `Connection.Follows`: an idle connection, with what was told and what is owed
* `Connection.Grants`: a server that accepts every step of a listing

## Main results

* `Connection.listing_follows`: what a listing comes to
* `FtpSource.has_held`: when a name is found on a session
-/

namespace InstallMedia

open Attempt (Meets)
open Connection

/-! ## Places -/

namespace FtpSource

/-- The command that lists the directory of a path, and what the path is called there.  Before the
last slash is the directory, which is the root if nothing is there; without a slash it is the
current directory. -/
inductive Asks : (path command file : String) → Prop where
  | current {path : String} (plain : '/' ∉ path.toList) : Asks path "NLST" path
  | root {file : String} (plain : '/' ∉ file.toList) : Asks ("/" ++ file) "NLST /" file
  | below {directory file : String} (named : directory ≠ "") (plain : '/' ∉ file.toList) :
    Asks (directory ++ "/" ++ file) ("NLST " ++ directory) file

variable {path command file : String}

/-- A path is split at a slash that has none after it. -/
theorem atLast?_path (directory : String) (h : '/' ∉ file.toList) :
    Split.atLast? (· = '/') (directory ++ "/" ++ file).toList =
      some (directory.toList, file.toList) := by
  have whole : (directory ++ "/" ++ file).toList =
      directory.toList ++ '/' :: file.toList := by simp
  rw [whole]
  refine Split.atLast?_append (by simp) _ fun c hc => ?_
  simpa using fun same : c = '/' => h (same ▸ hc)

/-- What a path asks for is what its place is listed with. -/
theorem Asks.place_eq (h : Asks path command file) :
    listingCommand (place path).1 = command ∧ (place path).2 = file := by
  cases h with
  | current plain =>
    have unsplit : Split.atLast? (· = '/') path.toList = none := by
      rw [Split.atLast?_eq_none_iff]
      intro c hc
      simpa using fun same : c = '/' => plain (same ▸ hc)
    rw [place, unsplit]
    exact ⟨rfl, rfl⟩
  | root plain =>
    have split := atLast?_path "" plain
    rw [String.empty_append] at split
    rw [place, split]
    exact ⟨rfl, String.ofList_toList⟩
  | @below directory file named plain =>
    -- The directory has a first character, so the place is not the root.
    obtain ⟨c, rest, chars⟩ := List.exists_cons_of_ne_nil
      (show directory.toList ≠ [] by simpa using named)
    rw [place, atLast?_path directory plain, chars]
    dsimp only
    rw [← chars, String.ofList_toList, String.ofList_toList, listingCommand, if_neg named]
    exact ⟨rfl, rfl⟩

/-- Every path asks for a directory. -/
theorem exists_asks (path : String) : ∃ command file, Asks path command file := by
  cases split : Split.atLast? (· = '/') path.toList with
  | none =>
    rw [Split.atLast?_eq_none_iff] at split
    exact ⟨"NLST", path, .current fun h => by simpa using split '/' h⟩
  | some parts =>
    obtain ⟨directory, file⟩ := parts
    obtain ⟨slash, chars, none_after, isSlash⟩ := Split.spec_of_atLast? split
    obtain rfl : slash = '/' := by simpa using isSlash
    have plain : '/' ∉ (String.ofList file).toList := by
      rw [String.toList_ofList]
      exact fun h => by simpa using none_after '/' h
    have whole : path = String.ofList directory ++ "/" ++ String.ofList file := by
      rw [← String.toList_inj, chars]
      simp
    rw [whole]
    by_cases root : String.ofList directory = ""
    · rw [root, String.empty_append]
      exact ⟨_, _, .root plain⟩
    · exact ⟨_, _, .below root plain⟩

end FtpSource

/-! ## Listings -/

namespace Connection

variable {server : FtpServer} {answers : Transcript → List WireReply} {first c : Connection}
  {events : List FtpEvent} {owed : List WireReply} {line command : String} {port : Nat}
  {r last : WireReply}

/-- An idle connection whose server was told these events since `first`, and on which just these
replies are owed. -/
structure Follows (first : Connection) (answers : Transcript → List WireReply)
    (events : List FtpEvent) (owed : List WireReply) (c : Connection) : Prop where
  told : Told first events c
  idle : c.state = .idle
  owes : c.Owes answers owed

/-- A server that can be sent a command after what it was told, and accepts it. -/
structure Clears (server : FtpServer) (answers : Transcript → List WireReply) (t : Transcript)
    (line : String) (r : WireReply) : Prop where
  clear : server.blocked t = none
  answer : answers (t ++ [asked line]) = [r]
  accepted : r.group = 2

/-- A command is accepted with one reply at most. -/
theorem Clears.unique {t : Transcript} {r' : WireReply} (h : Clears server answers t line r)
    (h' : Clears server answers t line r') : r = r' := by
  simpa using h.answer.symm.trans h'.answer

/-- A server that accepts the type of a listing, and announces the port for it. -/
structure Invites (first : Connection) (answers : Transcript → List WireReply) (port : Nat) :
    Prop where
  type : ∃ r, Clears first.server answers first.transcript "TYPE A" r
  passive : ∃ r, Clears first.server answers (first.transcript ++ [asked "TYPE A"]) "PASV" r ∧
    Passive.Announces r.reply.text.toList port

/-- A server that accepts every step of a listing up to the last: the port that it announces can be
reached, and it begins to send the listing and ends with the reply `last`. -/
structure Grants (first : Connection) (answers : Transcript → List WireReply) (command : String)
    (port : Nat) (last : WireReply) : Prop extends Invites first answers port where
  reached : first.server.refused (first.transcript ++
    [asked "TYPE A", asked "PASV", .dialled first.peer port]) = none
  clear : first.server.blocked (first.transcript ++
    [asked "TYPE A", asked "PASV", .dialled first.peer port]) = none
  begun : ∃ r, answers (first.transcript ++ beginning first.peer "TYPE A" command port) =
    [r, last] ∧ r.IsPreliminary

/-- A server that sends a listing as it is written, wherever it is granted. -/
def Lists (first : Connection) (command : String) (sheet : Listing.Sheet) : Prop :=
  ∀ port, (first.server.download
    (first.transcript ++ beginning first.peer "TYPE A" command port)).Delivers sheet.bytes

/-- A listing that has ended before the server completed it: part of what it is there to tell was
told, and nothing is owed. -/
structure Denied (first : Connection) (answers : Transcript → List WireReply) (command : String)
    (c : Connection) : Prop where
  part : ∃ events port, events <+: beginning first.peer "TYPE A" command port ∧
    Follows first answers events [] c
  denied : ∀ port last, Grants first answers command port last →
    last.group ≠ 2 ∧ Told first (beginning first.peer "TYPE A" command port) c

/-- A listing that cannot be granted has ended where the connection is. -/
theorem Follows.denied (h : Follows first answers events [] c) (port : Nat)
    (part : events <+: beginning first.peer "TYPE A" command port)
    (ungranted : ∀ port last, ¬ Grants first answers command port last) :
    Denied first answers command c :=
  ⟨⟨events, port, part, h⟩, fun port last grants => absurd grants (ungranted port last)⟩

/-- One port is announced at most. -/
theorem Invites.unique {port' : Nat} (h : Invites first answers port)
    (h' : Invites first answers port') : port = port' := by
  obtain ⟨r, clears, announced⟩ := h.passive
  obtain ⟨r', clears', announced'⟩ := h'.passive
  obtain rfl := clears.unique clears'
  have named := Passive.port?_eq_some_iff.mpr announced
  rw [Passive.port?_eq_some_iff.mpr announced'] at named
  exact (Option.some.inj named).symm

/-- There is one way at most in which a listing is granted. -/
theorem Grants.unique {port' : Nat} {last' : WireReply} (h : Grants first answers command port last)
    (h' : Grants first answers command port' last') : port = port' ∧ last = last' := by
  obtain rfl := h.toInvites.unique h'.toInvites
  obtain ⟨r, begun, -⟩ := h.begun
  obtain ⟨r', begun', -⟩ := h'.begun
  have same := begun.symm.trans begun'
  exact ⟨rfl, by simpa using (List.cons.inj same).2⟩

section Conforming

variable (hs : first.server.Conforms answers)

include hs

/-- A command is answered by the first reply to it, unless it cannot be sent. -/
theorem command_follows (ha : answers (first.transcript ++ events ++ [asked line]) = r :: owed) :
    Meets (Follows first answers events []) (Connection.command line)
      (fun reply c => reply = r.reply ∧ first.server.blocked (first.transcript ++ events) = none ∧
        Follows first answers (events ++ [asked line]) owed c)
      (fun c => Follows first answers events [] c ∧
        first.server.blocked (first.transcript ++ events) ≠ none) := by
  rintro c ⟨told, idle, owes⟩
  have conforms : c.server.Conforms answers := told.server_eq ▸ hs
  -- The server acts on what it was told, whichever of the two connections it is looked at from.
  rw [← told.server_eq, ← told.transcript_eq] at *
  cases blocked : c.server.blocked c.transcript with
  | some cause =>
    rw [Connection.command, Attempt.bind_of_error (send_of_blocked idle blocked line)]
    exact ⟨⟨told, idle, owes⟩, by simp⟩
  | none =>
    obtain ⟨sent, owes'⟩ := command_of_clear conforms owes idle blocked ha
    rw [sent]
    exact ⟨rfl, rfl, (told.tell (asked line)).hear r owed, idle, owes'⟩

/-- A command that is expected to be accepted is answered so, or the server does not clear it. -/
theorem expect_follows (hl : IsPlain line) :
    Meets (Follows first answers events []) (expect line 2)
      (fun reply c => ∃ r, reply = r.reply ∧
        Clears first.server answers (first.transcript ++ events) line r ∧
        Follows first answers (events ++ [asked line]) [] c)
      (fun c => (Follows first answers events [] c ∨
          Follows first answers (events ++ [asked line]) [] c) ∧
        ∀ r, ¬ Clears first.server answers (first.transcript ++ events) line r) := by
  obtain ⟨r, answer, -⟩ := hs.command (first.transcript ++ events) line hl
  refine ((command_follows hs answer).or_fails fun c h => ?_).bind fun reply => ?_
  · obtain ⟨follows, blocked⟩ := h
    exact ⟨Or.inl follows, fun _ clears => blocked clears.clear⟩
  rintro c ⟨rfl, clear, follows⟩
  by_cases accepted : r.reply.group = 2
  · rw [check_of_group accepted]
    exact ⟨r, rfl, ⟨clear, answer, accepted⟩, follows⟩
  · rw [check_of_other accepted]
    refine ⟨Or.inr follows, fun r' clears => accepted ?_⟩
    obtain rfl : r = r' := by simpa using answer.symm.trans clears.answer
    exact clears.accepted

theorem dial_follows (port : Nat) :
    Meets (Follows first answers events []) (dial port)
      (fun _ c => first.server.refused
          (first.transcript ++ (events ++ [.dialled first.peer port])) = none ∧
        Follows first answers (events ++ [.dialled first.peer port]) [] c)
      (fun c => first.server.refused
          (first.transcript ++ (events ++ [.dialled first.peer port])) ≠ none ∧
        Follows first answers (events ++ [.dialled first.peer port]) [] c) := by
  rintro c ⟨told, idle, owes⟩
  have told' := told.tell (.dialled c.peer port)
  have conforms : c.server.Conforms answers := told.server_eq ▸ hs
  have owes' := owes.tell conforms (.dialled c.peer port) (Or.inr rfl)
  rw [conforms.dialled, List.append_nil] at owes'
  have follows : Follows first answers (events ++ [.dialled c.peer port]) []
      (c.tell (.dialled c.peer port)) := ⟨told', idle, owes'⟩
  rw [told.peer_eq] at follows told'
  rw [dial, told.peer_eq]
  dsimp only
  rw [told'.server_eq, told'.transcript_eq]
  cases refused : first.server.refused
      (first.transcript ++ (events ++ [.dialled first.peer port])) with
  | none => exact ⟨rfl, follows⟩
  | some cause => exact ⟨by simp, follows⟩

/-- Once the port is announced, a data connection is opened for a listing if the server grants
it. -/
theorem invited_follows (oneLine : IsOneLine command) (isDownload : IsDownload command)
    (invites : Invites first answers port) :
    Meets (Follows first answers [asked "TYPE A", asked "PASV"] [])
      (do
        dial port
        let reply ← Connection.command command
        if reply.group = 1 then return else Attempt.fail (unexpected command reply))
      (fun _ c => ∃ port last, Grants first answers command port last ∧
        Follows first answers (beginning first.peer "TYPE A" command port) [last] c)
      (Denied first answers command) := by
  -- There is no other port that could be granted.
  have denies {c : Connection} {events : List FtpEvent} (h : Follows first answers events [] c)
      (part : events <+: beginning first.peer "TYPE A" command port)
      (ungranted : ∀ last, ¬ Grants first answers command port last) :
      Denied first answers command c := by
    refine h.denied port part fun port' last grants => ungranted last ?_
    obtain rfl := invites.unique grants.toInvites
    exact grants
  refine ((dial_follows hs port).or_fails fun c h => ?_).bind fun _ => ?_
  · obtain ⟨refused, follows⟩ := h
    exact denies follows ⟨_, rfl⟩ fun last grants => refused grants.reached
  rintro c ⟨reached, follows⟩
  have answered := hs.download (first.transcript ++
    [asked "TYPE A", asked "PASV", .dialled first.peer port]) command oneLine isDownload
  rcases answered with ⟨r, answer, final⟩ | ⟨r, last, answer, preliminary, -⟩
  · -- The listing is refused at once.
    refine Meets.bind ((command_follows hs answer).or_fails fun c h => ?_) (fun reply => ?_) c
      follows
    · exact denies h.1 ⟨_, rfl⟩ fun last grants => h.2 grants.clear
    rintro c ⟨rfl, clear, follows⟩
    have refused : r.reply.group ≠ 1 := final.not_preliminary
    rw [if_neg refused]
    refine denies follows (List.prefix_refl _) fun last grants => ?_
    obtain ⟨r', begun, -⟩ := grants.begun
    rw [List.append_assoc] at answer
    simpa using answer.symm.trans begun
  · refine Meets.bind ((command_follows hs answer).or_fails fun c h => ?_) (fun reply => ?_) c
      follows
    · exact denies h.1 ⟨_, rfl⟩ fun last grants => h.2 grants.clear
    rintro c ⟨rfl, clear, follows⟩
    have accepted : r.reply.group = 1 := preliminary
    rw [if_pos accepted]
    rw [List.append_assoc] at answer
    exact ⟨port, last, ⟨invites, reached, clear, r, answer, preliminary⟩, follows⟩

/-- A data connection is opened for a listing if the server grants it. -/
theorem openData_follows (oneLine : IsOneLine command) (isDownload : IsDownload command) :
    Meets (fun c => Follows first answers [asked "TYPE A"] [] c ∧
        ∃ r, Clears first.server answers first.transcript "TYPE A" r) (openData command)
      (fun _ c => ∃ port last, Grants first answers command port last ∧
        Follows first answers (beginning first.peer "TYPE A" command port) [last] c)
      (Denied first answers command) := by
  rintro c ⟨follows, typed⟩
  refine Meets.bind ((expect_follows hs isPlain_passive).or_fails fun c h => ?_)
    (fun reply => ?_) c follows
  · obtain ⟨follows, unclear⟩ := h
    have ungranted : ∀ port last, ¬ Grants first answers command port last := by
      intro port last grants
      obtain ⟨r, clears, -⟩ := grants.passive
      exact unclear r clears
    rcases follows with follows | follows
    · exact follows.denied 0 ⟨_, rfl⟩ ungranted
    · exact follows.denied 0 ⟨_, rfl⟩ ungranted
  rintro c ⟨r, rfl, clears, follows⟩
  -- Without a port nothing is granted, since the answer that would announce it is this one.
  cases named : Passive.port? r.reply.text with
  | some port =>
    have known : Passive.port r.reply = .ok port := by rw [Passive.port, named]
    have announced := Passive.port?_eq_some_iff.mp named
    rw [known, Attempt.ofExcept_ok_bind]
    exact invited_follows hs oneLine isDownload ⟨typed, r, clears, announced⟩ c follows
  | none =>
    rw [Passive.port, named]
    refine follows.denied 0 ⟨_, rfl⟩ fun port last grants => ?_
    obtain ⟨r', clears', announced⟩ := grants.passive
    obtain rfl := clears.unique clears'
    simp [Passive.port?_eq_some_iff.mpr announced] at named

/-- **What a listing comes to**: its names are given if the server grants it and completes it, and
otherwise it has ended before that. -/
theorem listing_follows {directory : String} {sheet : Listing.Sheet}
    (oneLine : IsOneLine directory) (wellFormed : sheet.WellFormed)
    (data : Lists first (listingCommand directory) sheet) :
    Meets (Follows first answers [] []) (listing directory)
      (fun names c => names = sheet.names ∧ ∃ port last,
        Grants first answers (listingCommand directory) port last ∧ last.group = 2 ∧
          Follows first answers
            (beginning first.peer "TYPE A" (listingCommand directory) port) [] c)
      (Denied first answers (listingCommand directory)) := by
  have typed := @expect_follows answers first [] "TYPE A" hs isPlain_text
  rw [List.append_nil] at typed
  refine Meets.bind (Q := fun _ c => Follows first answers [asked "TYPE A"] [] c ∧
    ∃ r, Clears first.server answers first.transcript "TYPE A" r) ?_ fun _ => ?_
  · refine (typed.weaken (fun _ h => h) ?_ ?_).discard
    · rintro _ c ⟨r, -, clears, follows⟩
      exact ⟨follows, r, clears⟩
    · rintro c ⟨follows, unclear⟩
      have ungranted : ∀ port last,
          ¬ Grants first answers (listingCommand directory) port last := by
        intro port last grants
        obtain ⟨r, clears⟩ := grants.type
        exact unclear r clears
      rcases follows with follows | follows
      · exact follows.denied 0 List.nil_prefix ungranted
      · exact follows.denied 0 ⟨_, rfl⟩ ungranted
  refine (openData_follows hs (isOneLine_listing oneLine) (isDownload_listing directory)).bind
    fun _ => ?_
  rintro c ⟨port, last, grants, follows⟩
  -- The listing is there to be read, and then the reply that completes it.
  have sent : Listing.names (c.server.download c.transcript) = .ok sheet.names := by
    rw [follows.told.server_eq, follows.told.transcript_eq]
    exact Listing.names_of_delivers wellFormed (data port)
  obtain ⟨read, owes⟩ := readReply_of_owes follows.owes
  have follows' : Follows first answers
      (beginning first.peer "TYPE A" (listingCommand directory) port) [] (c.hear last []) :=
    ⟨follows.told.hear last [], follows.idle, owes⟩
  rw [Attempt.bind_of_ok (Attempt.get_apply c), sent, mapError_eq_ok_iff.mpr rfl,
    Attempt.ofExcept_ok_bind, Attempt.bind_of_ok read]
  by_cases completed : last.reply.group = 2
  · rw [check_of_group completed]
    exact ⟨rfl, port, last, grants, completed, follows'⟩
  · rw [check_of_other completed]
    refine ⟨⟨_, port, List.prefix_refl _, follows'⟩, fun port' last' grants' => ?_⟩
    obtain ⟨rfl, rfl⟩ := grants.unique grants'
    exact ⟨completed, follows'.told⟩

end Conforming

end Connection

/-! ## Sessions -/

namespace FtpSource

variable {answers : Transcript → List WireReply} {s : FtpSource} {c c' : Connection} {others : Nat}
  {name path command file : String} {sheet : Listing.Sheet}

/-- Whether a path is found in a listing, and what has become of the connection: the server was told
the listing, or a part of it if it did not grant it, and what is said next is answered. -/
structure Looks (answers : Transcript → List WireReply) (c : Connection)
    (path command file : String) (sheet : Listing.Sheet) (found : Bool) (c' : Connection) : Prop
    where
  found_iff : found = true ↔ (path ∈ sheet.names ∨ file ∈ sheet.names) ∧
    ∃ port last, Grants c answers command port last ∧ last.group = 2
  part : ∃ events port, events <+: beginning c.peer "TYPE A" command port ∧
    Follows c answers events [] c'
  whole : ∀ port last, Grants c answers command port last →
    Told c (beginning c.peer "TYPE A" command port) c'

theorem lists_iff {names : List String} :
    lists names path file = true ↔ path ∈ names ∨ file ∈ names := by
  simp only [lists, List.any_eq_true, Bool.or_eq_true, decide_eq_true_eq]
  constructor
  · rintro ⟨entry, he, rfl | rfl⟩
    · exact Or.inl he
    · exact Or.inr he
  · rintro (h | h)
    · exact ⟨path, h, Or.inl rfl⟩
    · exact ⟨file, h, Or.inr rfl⟩

/-- Once the pending reply is read, a name is looked for in the listing of its directory, and is
found in none that fails. -/
theorem has_of_drained {w : World} {reply : Option FtpReply} {c₁ : Connection}
    (held : s.session = .held c others) (drained : drain c = (.ok reply, c₁))
    (decoded : percentDecode name = .ok path) :
    Source.has name (s, w) =
      (((listing (place path).1 c₁).1.map fun names =>
          lists names path (place path).2).toOption.getD false,
        { s with session := .held (listing (place path).1 c₁).2 others }, w) := by
  have ran : listed name (s, w) =
      (((listing (place path).1 c₁).1.map fun names =>
        lists names path (place path).2).mapError FtpFault.error,
        { s with session := .held (listing (place path).1 c₁).2 others }, w) :=
    beside_of_drained held drained decoded
  simp only [Source.has, ran]
  cases (listing (place path).1 c₁).1 <;> rfl

/-- A path is looked for in what its listing comes to. -/
theorem looks_of_listing {c₁ : Connection} (hs : c.server.Conforms answers)
    (begun : Follows c answers [] [] c₁) (oneLine : IsOneLine path)
    (asks : Asks path command file) (wellFormed : sheet.WellFormed)
    (data : Lists c command sheet) :
    Looks answers c path command file sheet
      (((listing (place path).1 c₁).1.map fun names =>
        lists names path (place path).2).toOption.getD false)
      (listing (place path).1 c₁).2 := by
  obtain ⟨rfl, rfl⟩ := asks.place_eq
  have run := listing_follows hs (isOneLine_place oneLine) wellFormed data c₁ begun
  cases listed : listing (place path).1 c₁ with
  | mk result c' =>
    rw [listed] at run
    cases result with
    | ok names =>
      obtain ⟨rfl, port, last, grants, completed, follows⟩ := run
      refine ⟨?_, ⟨_, port, List.prefix_refl _, follows⟩, fun port' last' grants' => ?_⟩
      · change lists sheet.names path (place path).2 = true ↔ _
        rw [lists_iff]
        exact ⟨fun h => ⟨h, port, last, grants, completed⟩, fun h => h.1⟩
      · obtain ⟨rfl, -⟩ := grants.unique grants'
        exact follows.told
    | error fault =>
      -- Where a listing that is granted fails, it was not completed.
      obtain ⟨part, denied⟩ := run
      refine ⟨iff_of_false (by simp [Except.map, Except.toOption]) ?_, part,
        fun port last grants => (denied port last grants).2⟩
      rintro ⟨-, port, last, grants, completed⟩
      exact (denied port last grants).1 completed

/-- **When a name is found.**  On a session in step, perhaps with a pending reply, it is found
exactly if the server grants the listing of its directory and the listing has the name, by itself or
with its directory.  The pending reply is read before that, and the session is idle after it, with
nothing owed.  On a late session no name is found, and the session stays late. -/
theorem has_held (held : s.session = .held c others) (w : World) (hs : c.server.Conforms answers)
    (decoded : percentDecode name = .ok path) (oneLine : IsOneLine path)
    (wellFormed : sheet.WellFormed) :
    ∃ command file, Asks path command file ∧
      (c.InStep answers → Lists c command sheet →
        ∃ reply c₁ c', drain c = (.ok reply, c₁) ∧ Follows c answers [] [] c₁ ∧
          (Source.has name (s, w)).2 = ({ s with session := .held c' others }, w) ∧
          Looks answers c path command file sheet (Source.has name (s, w)).1 c') ∧
      (IsLate c.server c → FtpServer.NamesNoPort answers →
        (Source.has name (s, w)).1 = false ∧
          ∃ c', (Source.has name (s, w)).2 = ({ s with session := .held c' others }, w) ∧
            IsLate c.server c') := by
  obtain ⟨command, file, asks⟩ := exists_asks path
  refine ⟨command, file, asks, fun step data => ?_, fun late ports => ?_⟩
  · have rests := drain_meets c ⟨rfl, step, rfl⟩
    have told := drain_told c (Told.refl c)
    cases drained : drain c with
    | mk result c₁ =>
      rw [drained] at rests told
      cases result with
      | error fault => exact rests.elim
      | ok reply =>
        have begun : Follows c answers [] [] c₁ := ⟨told, rests.idle, rests.owes⟩
        refine ⟨reply, c₁, (listing (place path).1 c₁).2, rfl, begun, ?_⟩
        rw [has_of_drained held drained decoded]
        exact ⟨rfl, looks_of_listing hs begun oneLine asks wellFormed data⟩
  · -- A late connection takes itself to be idle, so nothing is read before the listing.
    obtain ⟨r, lags⟩ := late
    have drained : drain c = (.ok none, c) := by rw [drain, if_pos lags.idle]
    have run := listing_late hs ports (place path).1 c ⟨r, lags⟩
    rw [has_of_drained held drained decoded]
    cases listed : listing (place path).1 c with
    | mk result c' =>
      rw [listed] at run
      cases result with
      | ok names => exact run.elim
      | error fault => exact ⟨rfl, c', rfl, run⟩

/-- A listing of one name. -/
def oneName : Listing.Sheet := { lines := [("b", .crlf)] }

theorem oneName_wellFormed : oneName.WellFormed := by
  intro text h
  obtain rfl | rfl : text = "b" ∨ text = "" := by simpa [oneName, Listing.Sheet.texts] using h
  · decide
  · decide

/-- The mirror that lists one name, once it has been started. -/
def listingMirror : FtpSource := startedMirror [.chunk oneName.bytes]

/-- The name in the listing of the mirror is looked for on a session in step. -/
theorem has_listingMirror :
    ∃ command file c', Asks "b" command file ∧
      (Source.has "b" (listingMirror, .obliging [])).2.1.session = .held c' 0 ∧
      Looks FtpServer.consents (greeted [.chunk oneName.bytes]) "b" command file oneName
        (Source.has "b" (listingMirror, .obliging [])).1 c' := by
  have decoded : percentDecode "b" = .ok "b" := toOption_eq_some_iff.mp (by decide +kernel)
  obtain ⟨command, file, asks, inStep, -⟩ := has_held (s := listingMirror) rfl (.obliging [])
    (FtpServer.obliging_conforms _) decoded (by decide) oneName_wellFormed
  obtain ⟨reply, c₁, c', -, -, left, looks⟩ := inStep (greeted_inStep _) fun _ => rfl
  exact ⟨command, file, c', asks, by rw [left], looks⟩

/-- The mirror after an upload whose source has failed. -/
def lateMirror : FtpSource :=
  ((Call.store "a" (.feed [.fault ⟨.other, "read failed"⟩])).perform
    (listingMirror, .obliging [])).2.1

/-- A name that is in the listing of the mirror is not found there after an upload whose source has
failed, though the server grants all that it is asked for; and the answer to the next command is
late again. -/
theorem has_lateMirror :
    (greeted [.chunk oneName.bytes]).server.Conforms FtpServer.consents ∧
      "b" ∈ oneName.names ∧ lateMirror.replyPending = false ∧
      (Source.has "b" (listingMirror, .obliging [])).1 = true ∧
      (Source.has "b" (lateMirror, .obliging [])).1 = false ∧
      (Source.has "b" (lateMirror, .obliging [])).2.1.AnswersLate
        (FtpServer.saying 227 "Entering Passive Mode (127,0,0,1,4,0)") :=
  ⟨FtpServer.obliging_conforms _, by decide, by decide +kernel, by decide +kernel,
    by decide +kernel, answersLate_of_resource (by decide +kernel)⟩

end FtpSource

end InstallMedia
