import InstallMedia.Proofs.Ftp.Obliging
import InstallMedia.Proofs.Text.Split

/-!
# Replies read back

Replies are written in lines of text.  Whoever reads so many replies from a connection gets just
those that were written, in order, whatever their lines look like: a line ends a reply only if it
repeats the code of that reply, alone or before a blank.

## Main definitions

* `TextReply`: a reply in lines of text, with `TextReply.bytes`, as it is written, and
  `TextReply.reply`, what it says
* `Connection.readReplies`: reading so many replies

## Main results

* `Connection.readReplies_written`: what was written is read back, and then the connection is over
-/

namespace InstallMedia

/-- A line of text: no line feed is inside, and no carriage return stands before its end. -/
def IsLine (text : String) : Prop :=
  '\n' ∉ text.toList ∧ text.toList.getLast? ≠ some '\r'

instance (text : String) : Decidable (IsLine text) := inferInstanceAs (Decidable (_ ∧ _))

/-- Whether a line ends a reply with this code: it is the code alone, or begins with the code and a
blank. -/
def EndsReply (code : Nat) (text : String) : Prop :=
  text = toString code ∨ (toString code ++ " ").toList <+: text.toList

instance (code : Nat) (text : String) : Decidable (EndsReply code text) :=
  inferInstanceAs (Decidable (_ ∨ _))

/-- A reply in lines of text. -/
structure TextReply where
  code : Nat
  /-- The lines before the last one.  The first of them follows the code and a hyphen. -/
  before : List (String × LineEnd) := []
  /-- What follows the code and a blank on the last line; without it the code stands alone. -/
  last : Option String := none
  ending : LineEnd := .crlf
  le_code : 100 ≤ code := by decide
  code_lt : code < 1000 := by decide
  isLine_before : ∀ l ∈ before, IsLine l.1 := by decide
  isLine_last : ∀ text ∈ last, IsLine text := by decide
  /-- No line before the last one ends the reply. -/
  goes_on : ∀ l ∈ before.tail, ¬ EndsReply code l.1 := by decide

namespace TextReply

/-- The reply as it is written. -/
def wire (r : TextReply) : WireReply where
  code := r.code
  before := r.before.map fun l => ⟨Utf8.encode l.1, l.2⟩
  last := r.last.map Utf8.encode
  ending := r.ending

/-- The bytes of a reply. -/
def bytes (r : TextReply) : Bytes := r.wire.bytes

/-- The texts of the lines. -/
def texts (r : TextReply) : List String := r.before.map (·.1) ++ [r.last.getD ""]

/-- What a reply says: its code, and the texts of its lines one below the other. -/
def reply (r : TextReply) : FtpReply := ⟨r.code, String.intercalate "\n" r.texts⟩

end TextReply

/-! ## Lines -/

namespace FtpReply

/-- A line of text is seen as it is. -/
theorem lineChars_encode {text : String} (h : IsLine text) :
    lineChars (Utf8.encode text) = text.toList := by
  have decoded : Utf8.decodeLossyFrom 0 (Utf8.encode text) = text.toList := by
    have := Utf8.decodeLossyFrom_encodeChars text.toList []
    rwa [List.append_nil, Utf8.decodeLossyFrom, List.append_nil] at this
  rw [lineChars, decoded]
  apply Split.trimEnd_eq_self
  intro c hc
  have feed : c ≠ '\n' := fun hn => h.1 (hn ▸ List.mem_of_getLast? hc)
  have return_ne : c ≠ '\r' := fun hr => h.2 (hr ▸ hc)
  simp [feed, return_ne]

/-- A line of text is taken for the last one when it repeats the code. -/
theorem isLast_toList_iff {code : Nat} {text : String} :
    isLast code text.toList = true ↔ EndsReply code text := by
  have digits : (toString code).toList = codeText code := by
    simp [codeText, toString, Nat.repr]
  rw [isLast, Bool.or_eq_true, Split.strip?_isSome_iff, decide_eq_true_iff, EndsReply,
    ← String.toList_inj, String.toList_append, digits]
  exact Or.comm

end FtpReply

open FtpReply (lineChars lineChars_encode)

namespace TextReply

theorem legible (r : TextReply) : r.wire.Legible where
  le_code := r.le_code
  code_lt := r.code_lt
  feed_notMem_before := by
    intro l hl
    obtain ⟨line, hline, rfl⟩ := List.mem_map.mp hl
    exact Lines.feed_notMem_encode.mpr (r.isLine_before line hline).1
  feed_notMem_last := by
    intro text htext
    obtain ⟨last, hlast, rfl⟩ := Option.map_eq_some_iff.mp htext
    exact Lines.feed_notMem_encode.mpr (r.isLine_last last hlast).1
  not_closes := by
    intro l hl
    rw [wire, ← List.map_tail] at hl
    obtain ⟨line, hline, rfl⟩ := List.mem_map.mp hl
    have isLine := r.isLine_before line (List.mem_of_mem_tail hline)
    have feed := Lines.feed_notMem_encode.mpr isLine.1
    -- The bytes of a line close a reply just when its text does.
    intro closes
    have last := (FtpReply.isLast_iff r.le_code r.code_lt feed).mpr closes
    rw [lineChars_encode isLine, FtpReply.isLast_toList_iff] at last
    exact r.goes_on line hline last

/-- Lines one below the other, all but the last followed by a line feed. -/
theorem toList_intercalate_concat (lines : List String) (last : String) :
    (String.intercalate "\n" (lines ++ [last])).toList =
      lines.flatMap (fun line => line.toList ++ ['\n']) ++ last.toList := by
  rw [String.toList_intercalate]
  induction lines with
  | nil => simp
  | cons line lines ih =>
    rw [List.flatMap_cons, List.append_assoc, ← ih]
    cases lines with
    | nil => simp [List.intercalate_cons_cons]
    | cons line' lines => simp [List.intercalate_cons_cons]

/-- What is read of the bytes of a reply is what it says. -/
theorem reply_wire (r : TextReply) : r.wire.reply = r.reply := by
  have before : ∀ lines : List (String × LineEnd), (∀ l ∈ lines, IsLine l.1) →
      (lines.map fun l => (⟨Utf8.encode l.1, l.2⟩ : WireLine)).flatMap
          (fun l => lineChars l.text ++ ['\n']) =
        (lines.map (·.1)).flatMap fun line => line.toList ++ ['\n'] := by
    intro lines h
    rw [List.flatMap_map, List.flatMap_map]
    exact List.flatMap_congr fun l hl => by rw [lineChars_encode (h l hl)]
  have last : lineChars ((r.last.map Utf8.encode).getD []) = (r.last.getD "").toList := by
    cases h : r.last with
    | none => rfl
    | some text => exact lineChars_encode (r.isLine_last text h)
  simp only [WireReply.reply, wire, reply, texts, FtpReply.mk.injEq, true_and]
  rw [before r.before r.isLine_before, last, ← toList_intercalate_concat, String.ofList_toList]

end TextReply

/-! ## Reading -/

namespace Connection

/-- Reads so many replies, one after the other. -/
def readReplies : (number : Nat) → Session (List FtpReply)
  | 0 => pure []
  | number + 1 => do
    let reply ← readReply
    let more ← readReplies number
    return reply :: more

variable {c : Connection}

/-- A reply that stands in front of what is unread is read, and no more than it. -/
theorem readReply_of_unread {r : TextReply} {rest : Bytes} (h : c.unread = r.bytes ++ rest) :
    readReply c = (.ok r.reply, { c with
      unread := rest
      heard := c.heard ++ [(c.transcript.commands, r.reply)] }) := by
  have hread := FtpReply.read_bytes r.legible (c.server.silence c.transcript) rest
  rw [readReply, h, TextReply.bytes, hread, TextReply.reply_wire]

/-- Replies that stand in front of what is unread are read one by one. -/
theorem readReplies_of_unread {before : List TextReply} {rest : Bytes}
    (h : c.unread = before.flatMap TextReply.bytes ++ rest) :
    ∃ heard, readReplies before.length c =
      (.ok (before.map TextReply.reply), { c with unread := rest, heard }) := by
  induction before generalizing c with
  | nil =>
    obtain rfl : c.unread = rest := h
    exact ⟨c.heard, rfl⟩
  | cons r before ih =>
    rw [List.flatMap_cons, List.append_assoc] at h
    obtain ⟨heard, more⟩ := @ih { c with
      unread := before.flatMap TextReply.bytes ++ rest
      heard := c.heard ++ [(c.transcript.commands, r.reply)] } rfl
    refine ⟨heard, ?_⟩
    rw [List.length_cons, readReplies, Attempt.bind_of_ok (readReply_of_unread h),
      Attempt.bind_of_ok more]
    rfl

/-- Where nothing is unread and the connection is over, no reply can be read. -/
theorem readReply_of_closed (h : c.unread = []) (closed : c.server.silence c.transcript = none) :
    readReply c = (.error .closed, c) := by
  have nothing : FtpReply.read none [] = (.error .closed, []) := rfl
  rw [readReply, h, closed, nothing, ← h]

/-- **What was written is read back**, reply by reply.  Each reading takes the bytes of one reply
and gives what it says; after the last one the connection is over. -/
theorem readReplies_written {written : List TextReply}
    (sent : c.unread = written.flatMap TextReply.bytes)
    (closed : c.server.silence c.transcript = none) :
    (∀ before r after, written = before ++ r :: after →
      let now := (readReplies before.length c).2
      now.unread = r.bytes ++ after.flatMap TextReply.bytes ∧
        (readReply now).1 = .ok r.reply ∧
        (readReply now).2.unread = after.flatMap TextReply.bytes) ∧
      (readReplies written.length c).1 = .ok (written.map TextReply.reply) ∧
      (readReply (readReplies written.length c).2).1 = .error .closed := by
  refine ⟨fun before r after hw => ?_, ?_⟩
  · rw [hw, List.flatMap_append, List.flatMap_cons] at sent
    obtain ⟨heard, read⟩ := readReplies_of_unread sent
    dsimp only
    rw [read, readReply_of_unread rfl]
    exact ⟨rfl, rfl, rfl⟩
  · rw [← List.append_nil (written.flatMap _)] at sent
    obtain ⟨heard, read⟩ := readReplies_of_unread sent
    have ended := readReply_of_closed (c := { c with unread := [], heard }) rfl closed
    rw [read]
    exact ⟨rfl, congrArg Prod.fst ended⟩

/-- Three replies: a code alone, a greeting whose lines look like the ends of other replies, and a
code that no reply has. -/
def greetings : List TextReply :=
  [{ code := 220, ending := .lf },
   { code := 230
     before := [("Hello", .crlf), ("230-again", .lf), ("226 Done", .crlf), ("2300", .crlf),
       (" 230 ", .lf)]
     last := some "" },
   { code := 999, last := some "Grüße" }]

/-- A connection on which they were sent, and nothing else. -/
def talkative : Connection :=
  { fresh (.obliging []) "mirror" with unread := greetings.flatMap TextReply.bytes }

theorem readReplies_talkative :
    (readReplies 3 talkative).1 = .ok [⟨220, ""⟩,
      ⟨230, "Hello\n230-again\n226 Done\n2300\n 230 \n"⟩, ⟨999, "Grüße"⟩] ∧
      (readReply (readReplies 3 talkative).2).1 = .error .closed := by
  have sent : talkative.unread = greetings.flatMap TextReply.bytes := rfl
  exact (readReplies_written sent rfl).2

end Connection

end InstallMedia
