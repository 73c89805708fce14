import InstallMedia.Ftp.Reply
import InstallMedia.Proofs.Text.Lines

/-!
# Replies on the wire

What a server writes for one reply: a line, or several of which none but the last looks like a last
one.  Texts are any bytes without a line feed, so that nothing is asked of their encoding.  A reader
takes exactly the bytes of one reply, whatever follows them.

## Main definitions

* `WireLine`, `WireReply`: a reply as it is written, and `WireReply.bytes`, its bytes
* `WireReply.WellFormed`: what makes it a reply, and `WireReply.Legible`, what is enough to read it
* `WireReply.reply`: what it says

## Main results

* `FtpReply.isLast_iff`: a line ends a reply exactly when it begins with the code and a blank, or
  is the code alone
* `FtpReply.read_bytes`: a reader takes one reply and leaves what follows
-/

namespace InstallMedia

/-- How a line ends. -/
inductive LineEnd where
  | crlf
  | lf
  deriving DecidableEq, Repr

/-- The bytes that end a line. -/
def LineEnd.bytes : LineEnd → Bytes
  | crlf => [0x0D, 0x0A]
  | lf => [0x0A]

/-- A line as it is written. -/
structure WireLine where
  text : Bytes
  ending : LineEnd
  deriving DecidableEq, Repr

/-- The bytes of a line. -/
def WireLine.bytes (l : WireLine) : Bytes := l.text ++ l.ending.bytes

/-- A reply as it is written. -/
structure WireReply where
  code : Nat
  /-- The lines before the last one.  The first of them follows the code and a hyphen. -/
  before : List WireLine := []
  /-- What follows the code and a blank on the last line; without it the code stands alone. -/
  last : Option Bytes := none
  ending : LineEnd := .crlf
  deriving DecidableEq, Repr

namespace WireReply

/-- The three digits of a code. -/
def digits (code : Nat) : Bytes :=
  [UInt8.ofNat (0x30 + code / 100), UInt8.ofNat (0x30 + code / 10 % 10),
    UInt8.ofNat (0x30 + code % 10)]

/-- Whether a line ends a reply with this code: the code and a blank stand at its beginning, or it
is the code alone.  Carriage returns at its end do not count. -/
def Closes (code : Nat) (text : Bytes) : Prop :=
  digits code ++ [0x20] <+: text ∨ ∃ n, text = digits code ++ List.replicate n 0x0D

/-- What makes bytes a reply. -/
structure WellFormed (r : WireReply) : Prop where
  le_code : 100 ≤ r.code
  code_lt : r.code < 600
  feed_notMem_before : ∀ l ∈ r.before, Lines.feed ∉ l.text
  feed_notMem_last : ∀ text ∈ r.last, Lines.feed ∉ text
  not_closes : ∀ l ∈ r.before.tail, ¬ Closes r.code l.text

/-- What is enough for a reader: any code of three digits will do, also one that no reply has. -/
structure Legible (r : WireReply) : Prop where
  le_code : 100 ≤ r.code
  code_lt : r.code < 1000
  feed_notMem_before : ∀ l ∈ r.before, Lines.feed ∉ l.text
  feed_notMem_last : ∀ text ∈ r.last, Lines.feed ∉ text
  not_closes : ∀ l ∈ r.before.tail, ¬ Closes r.code l.text

theorem WellFormed.legible {r : WireReply} (h : r.WellFormed) : r.Legible where
  le_code := h.le_code
  code_lt := h.code_lt.trans (by decide)
  feed_notMem_before := h.feed_notMem_before
  feed_notMem_last := h.feed_notMem_last
  not_closes := h.not_closes

/-- What stands on the last line. -/
def lastText (r : WireReply) : Bytes :=
  digits r.code ++
    match r.last with
    | none => []
    | some text => 0x20 :: text

/-- The last line. -/
def lastLine (r : WireReply) : WireLine := ⟨r.lastText, r.ending⟩

/-- The lines of a reply, in order. -/
def lines (r : WireReply) : List WireLine :=
  match r.before with
  | [] => [r.lastLine]
  | first :: more => ⟨digits r.code ++ 0x2D :: first.text, first.ending⟩ :: (more ++ [r.lastLine])

/-- The bytes of a reply. -/
def bytes (r : WireReply) : Bytes := r.lines.flatMap WireLine.bytes

theorem bytes_ne_nil (r : WireReply) : r.bytes ≠ [] := by
  rw [bytes, lines]
  split <;> simp [WireLine.bytes, lastLine, lastText, digits]

/-- What a reply says: its code, and the texts of its lines one below the other. -/
def reply (r : WireReply) : FtpReply where
  code := r.code
  text := String.ofList (r.before.flatMap (fun l => FtpReply.lineChars l.text ++ ['\n']) ++
    FtpReply.lineChars (r.last.getD []))

/-- The hundreds of the code. -/
def group (r : WireReply) : Nat := r.code / 100

@[simp] theorem group_reply (r : WireReply) : r.reply.group = r.group := rfl

end WireReply

/-! ## Codes -/

namespace FtpReply

/-- The digits of a code, as text. -/
theorem codeText_eq {code : Nat} (h : 100 ≤ code) (h' : code < 1000) :
    codeText code =
      [Nat.digitChar (code / 100), Nat.digitChar (code / 10 % 10), Nat.digitChar (code % 10)] := by
  -- The digits are split off one by one, the last one first.
  have tens : code / 10 / 10 = code / 100 := by omega
  rw [codeText, Nat.toDigits_of_base_le (by decide) (by omega),
    Nat.toDigits_of_base_le (by decide) (by omega), tens,
    Nat.toDigits_of_lt_base (by omega)]
  rfl

/-- What is needed of a decimal digit. -/
theorem digitChar_spec {d : Nat} (h : d < 10) :
    (Nat.digitChar d).isDigit = true ∧ digitValue (Nat.digitChar d) = d ∧
      Utf8.encodeChar (Nat.digitChar d) = [UInt8.ofNat (0x30 + d)] ∧
      (Nat.digitChar d).toNat < 0x80 ∧ Nat.digitChar d ≠ '\r' ∧ Nat.digitChar d ≠ '\n' := by
  have all : ∀ d : Fin 10, (Nat.digitChar d).isDigit = true ∧ digitValue (Nat.digitChar d) = d ∧
      Utf8.encodeChar (Nat.digitChar d) = [UInt8.ofNat (0x30 + d)] ∧
      (Nat.digitChar d).toNat < 0x80 ∧ Nat.digitChar d ≠ '\r' ∧ Nat.digitChar d ≠ '\n' := by
    decide
  exact all ⟨d, h⟩

section Code

variable {code : Nat} (h : 100 ≤ code) (h' : code < 1000)

include h h'

theorem encodeChars_codeText : Utf8.encodeChars (codeText code) = WireReply.digits code := by
  rw [codeText_eq h h']
  simp only [Utf8.encodeChars, List.flatMap_cons, List.flatMap_nil, List.append_nil,
    (digitChar_spec (show code / 100 < 10 by omega)).2.2.1,
    (digitChar_spec (show code / 10 % 10 < 10 by omega)).2.2.1,
    (digitChar_spec (show code % 10 < 10 by omega)).2.2.1]
  rfl

theorem mem_codeText {c : Char} (hc : c ∈ codeText code) :
    ∃ d, d < 10 ∧ c = Nat.digitChar d := by
  rw [codeText_eq h h'] at hc
  simp only [List.mem_cons, List.not_mem_nil, or_false] at hc
  rcases hc with rfl | rfl | rfl
  · exact ⟨code / 100, by omega, rfl⟩
  · exact ⟨code / 10 % 10, by omega, rfl⟩
  · exact ⟨code % 10, by omega, rfl⟩

theorem code?_codeText (rest : List Char) : code? (codeText code ++ rest) = some (code, rest) := by
  rw [codeText_eq h h']
  obtain ⟨hundreds, hundredsValue, -⟩ := digitChar_spec (show code / 100 < 10 by omega)
  obtain ⟨tens, tensValue, -⟩ := digitChar_spec (show code / 10 % 10 < 10 by omega)
  obtain ⟨units, unitsValue, -⟩ := digitChar_spec (show code % 10 < 10 by omega)
  simp only [List.cons_append, List.nil_append, code?, hundreds, tens, units, hundredsValue,
    tensValue, unitsValue, Bool.and_self, if_true, Option.some.injEq, Prod.mk.injEq, and_true]
  omega

/-- Nothing is left of a line that is a code alone. -/
theorem lineText_codeText : lineText (codeText code) = [] := by
  rw [codeText_eq h h']
  simp [lineText, afterBytes?, (digitChar_spec (show code / 100 < 10 by omega)).2.2.1,
    (digitChar_spec (show code / 10 % 10 < 10 by omega)).2.2.1,
    (digitChar_spec (show code % 10 < 10 by omega)).2.2.1]

/-- What follows a code and one more ASCII character is the text of a line. -/
theorem lineText_codeText_append {c : Char} (hc : c.toNat < 0x80) (rest : List Char) :
    lineText (codeText code ++ c :: rest) = rest := by
  rw [codeText_eq h h']
  -- The text begins after four bytes, which are four characters here.
  have one : (Utf8.encodeChar c).length = 1 := by
    rw [Utf8.encodeChar_ascii hc]
    rfl
  simp [lineText, afterBytes?, one, (digitChar_spec (show code / 100 < 10 by omega)).2.2.1,
    (digitChar_spec (show code / 10 % 10 < 10 by omega)).2.2.1,
    (digitChar_spec (show code % 10 < 10 by omega)).2.2.1]

end Code

/-! ## Lines -/

theorem lineChars_append_ending (text : Bytes) (ending : LineEnd) :
    lineChars (text ++ ending.bytes) = lineChars text := by
  unfold lineChars
  cases ending with
  | crlf =>
    -- A lossy reader sees ASCII bytes at the end as themselves, one after the other.
    have crlf : text ++ LineEnd.crlf.bytes = (text ++ [0x0D]) ++ [0x0A] := by simp [LineEnd.bytes]
    rw [crlf, Utf8.decodeLossyFrom_append_ascii (by decide) (Nat.zero_le _),
      Utf8.decodeLossyFrom_append_ascii (by decide) (Nat.zero_le _), List.append_assoc,
      Split.trimEnd_append_all _ (by simp)]
  | lf =>
    rw [LineEnd.bytes, Utf8.decodeLossyFrom_append_ascii (by decide) (Nat.zero_le _),
      Split.trimEnd_append_all _ (by simp)]

theorem lineChars_encodeChars_append (cs : List Char) (h : ∀ c ∈ cs, c ≠ '\r' ∧ c ≠ '\n')
    (text : Bytes) : lineChars (Utf8.encodeChars cs ++ text) = cs ++ lineChars text := by
  unfold lineChars
  rw [Utf8.decodeLossyFrom_encodeChars, Split.trimEnd_append]
  intro c hc
  simp [h c hc]

/-- Carriage returns are not seen at the end of a line. -/
theorem lineChars_returns (n : Nat) : lineChars (List.replicate n 0x0D) = [] := by
  have returns : List.replicate n (0x0D : UInt8) =
      Utf8.encodeChars (List.replicate n '\r') ++ [] := by
    simp [Utf8.encodeChars, Utf8.encodeChar, List.flatMap_replicate]
  rw [lineChars, returns, Utf8.decodeLossyFrom_encodeChars, ← List.nil_append (_ ++ _),
    Split.trimEnd_append_all]
  · rfl
  · simp [Utf8.decodeLossyFrom]

/-- What is seen of a line, and the line ends that are not. -/
theorem decodeLossy_eq_lineChars_append (text : Bytes) :
    ∃ ends, (∀ c ∈ ends, c = '\r' ∨ c = '\n') ∧
      Utf8.decodeLossyFrom 0 text = lineChars text ++ ends := by
  obtain ⟨ends, hends, h⟩ := Split.eq_trimEnd_append (fun c => c = '\r' || c = '\n')
    (Utf8.decodeLossyFrom 0 text)
  exact ⟨ends, by simpa using hends, h⟩

section Ascii

variable {cs : List Char} (ascii : ∀ c ∈ cs, c.toNat < 0x80) {text : Bytes}

include ascii

/-- ASCII characters that are seen at the beginning of a line were written there. -/
theorem prefix_of_lineChars (h : cs <+: lineChars text) : Utf8.encodeChars cs <+: text := by
  obtain ⟨more, h⟩ := h
  obtain ⟨ends, -, hdecode⟩ := decodeLossy_eq_lineChars_append text
  rw [← h, List.append_assoc] at hdecode
  obtain ⟨rest, rfl, -⟩ := Utf8.exists_of_decodeLossy_append ascii hdecode
  exact List.prefix_append _ _

/-- A line of which ASCII characters are seen has these and carriage returns. -/
theorem exists_of_lineChars_eq (hf : Lines.feed ∉ text) (h : lineChars text = cs) :
    ∃ n, text = Utf8.encodeChars cs ++ List.replicate n 0x0D := by
  obtain ⟨ends, hends, hdecode⟩ := decodeLossy_eq_lineChars_append text
  -- All that is seen is ASCII, so all of it was written.
  have endsAscii : ∀ c ∈ cs ++ ends, c.toNat < 0x80 := by
    intro c hc
    rcases List.mem_append.mp hc with hc | hc
    · exact ascii c hc
    · rcases hends c hc with rfl | rfl <;> decide
  rw [h, ← List.append_nil (_ ++ _)] at hdecode
  obtain ⟨rest, rfl, hrest⟩ := Utf8.exists_of_decodeLossy_append endsAscii hdecode
  obtain rfl : rest = [] := Utf8.eq_nil_of_decodeLossyFrom hrest
  rw [List.append_nil] at hf ⊢
  -- What was trimmed off are line ends, and there is no line feed.
  have returns : ∀ c ∈ ends, c = '\r' := by
    intro c hc
    refine (hends c hc).resolve_right fun hn => hf ?_
    rw [Utf8.mem_encodeChars_ascii (by decide)]
    exact List.mem_append_right _ (hn ▸ hc)
  refine ⟨ends.length, ?_⟩
  rw [List.eq_replicate_of_mem returns]
  simp [Utf8.encodeChars, Utf8.encodeChar, List.flatMap_replicate]

end Ascii

section Code

variable {code : Nat} (h : 100 ≤ code) (h' : code < 1000)

include h h'

theorem codeText_ascii : ∀ c ∈ codeText code, c.toNat < 0x80 := by
  intro c hc
  obtain ⟨d, hd, rfl⟩ := mem_codeText h h' hc
  exact (digitChar_spec hd).2.2.2.1

theorem codeText_clean : ∀ c ∈ codeText code, c ≠ '\r' ∧ c ≠ '\n' := by
  intro c hc
  obtain ⟨d, hd, rfl⟩ := mem_codeText h h' hc
  exact (digitChar_spec hd).2.2.2.2

theorem lineChars_digits_append (text : Bytes) :
    lineChars (WireReply.digits code ++ text) = codeText code ++ lineChars text := by
  rw [← encodeChars_codeText h h', lineChars_encodeChars_append _ (codeText_clean h h')]

/-- A line ends a reply exactly when it begins with the code and a blank, or is the code alone. -/
theorem isLast_iff {text : Bytes} (hf : Lines.feed ∉ text) :
    isLast code (lineChars text) = true ↔ WireReply.Closes code text := by
  rw [isLast, Bool.or_eq_true, Split.strip?_isSome_iff, decide_eq_true_iff, WireReply.Closes,
    ← encodeChars_codeText h h']
  constructor
  · rintro (blank | alone)
    · have := prefix_of_lineChars (by simpa [or_imp, forall_and] using codeText_ascii h h') blank
      exact Or.inl (by simpa [Utf8.encodeChars, Utf8.encodeChar] using this)
    · exact Or.inr (exists_of_lineChars_eq (codeText_ascii h h') hf alone)
  · rintro (⟨rest, rfl⟩ | ⟨n, rfl⟩)
    · left
      rw [List.append_assoc, encodeChars_codeText h h', lineChars_digits_append h h']
      have blank := lineChars_encodeChars_append [' '] (by simp) rest
      exact ⟨lineChars rest, by rw [List.append_assoc]; exact congrArg _ blank.symm⟩
    · right
      rw [encodeChars_codeText h h', lineChars_digits_append h h', lineChars_returns,
        List.append_nil]

end Code

/-! ## Reading -/

/-- A line without a line feed inside, and its end, are cut off as one line. -/
theorem split_line {text : Bytes} (hf : Lines.feed ∉ text) (ending : LineEnd) (rest : Bytes) :
    Lines.split (text ++ ending.bytes ++ rest) = (text ++ ending.bytes) :: Lines.split rest := by
  cases ending with
  | lf =>
    have cut := Lines.split_append hf rest
    simpa [LineEnd.bytes, Lines.feed] using cut
  | crlf =>
    have hf' : Lines.feed ∉ text ++ [0x0D] := by simpa [Lines.feed] using hf
    have cut := Lines.split_append hf' rest
    simpa [LineEnd.bytes, Lines.feed] using cut

theorem isComplete_line (text : Bytes) (ending : LineEnd) :
    Lines.isComplete (text ++ ending.bytes) = true := by
  cases ending <;> simp [LineEnd.bytes, Lines.isComplete, Lines.feed]

theorem split_lines {lines : List WireLine} (hf : ∀ l ∈ lines, Lines.feed ∉ l.text)
    (rest : Bytes) :
    Lines.split (lines.flatMap WireLine.bytes ++ rest) =
      lines.map WireLine.bytes ++ Lines.split rest := by
  induction lines with
  | nil => rfl
  | cons l lines ih =>
    rw [List.flatMap_cons, List.append_assoc, WireLine.bytes, split_line (hf l (by simp)),
      ih fun l' hl' => hf l' (by simp [hl'])]
    rfl

theorem nextLine_cons (fault : Option IoFault) (l : WireLine) (more : List Bytes) :
    nextLine fault (l.bytes :: more) = (.ok (lineChars l.text), more) := by
  simp [nextLine, WireLine.bytes, isComplete_line, lineChars_append_ending]

section Reply

variable {r : WireReply} (hr : r.Legible) (fault : Option IoFault) (more : List Bytes)

include hr

theorem feed_notMem_digits_append {text : Bytes} (hf : Lines.feed ∉ text) :
    Lines.feed ∉ WireReply.digits r.code ++ text := by
  intro h
  rcases List.mem_append.mp h with h | h
  · rw [← encodeChars_codeText hr.le_code hr.code_lt, Utf8.mem_encodeChars_ascii (by decide)] at h
    exact (codeText_clean hr.le_code hr.code_lt _ h).2 rfl
  · exact hf h

theorem feed_notMem_lastText : Lines.feed ∉ r.lastText := by
  refine feed_notMem_digits_append hr ?_
  cases hl : r.last with
  | none => simp
  | some text => simpa [Lines.feed] using hr.feed_notMem_last text hl

theorem feed_notMem_lines : ∀ l ∈ r.lines, Lines.feed ∉ l.text := by
  have before := hr.feed_notMem_before
  intro l hl
  rw [WireReply.lines] at hl
  split at hl
  · obtain rfl : l = r.lastLine := by simpa using hl
    exact feed_notMem_lastText hr
  · rename_i first inner hb
    rw [hb] at before
    rcases List.mem_cons.mp hl with rfl | hl
    · exact feed_notMem_digits_append hr (by simpa [Lines.feed] using before first (by simp))
    · rcases List.mem_append.mp hl with hl | hl
      · exact before l (by simp [hl])
      · obtain rfl : l = r.lastLine := by simpa using hl
        exact feed_notMem_lastText hr

/-- What is seen of the last line. -/
theorem lineChars_lastText :
    (r.last = none ∧ lineChars r.lastText = codeText r.code) ∨
      ∃ text, r.last = some text ∧
        lineChars r.lastText = codeText r.code ++ ' ' :: lineChars text := by
  cases hl : r.last with
  | none =>
    left
    rw [WireReply.lastText, hl, lineChars_digits_append hr.le_code hr.code_lt]
    exact ⟨rfl, List.append_nil _⟩
  | some text =>
    right
    have blank := lineChars_encodeChars_append [' '] (by simp) text
    rw [WireReply.lastText, hl, lineChars_digits_append hr.le_code hr.code_lt]
    exact ⟨text, rfl, congrArg _ blank⟩

theorem opening_lastText : opening (lineChars r.lastText) = .ok (r.code, false) := by
  have code := code?_codeText hr.le_code hr.code_lt
  rcases lineChars_lastText hr with ⟨-, h⟩ | ⟨text, -, h⟩
  · rw [h, ← List.append_nil (codeText _), opening, code]
  · rw [h, opening, code]
    rfl

theorem lineText_lastText : lineText (lineChars r.lastText) = lineChars (r.last.getD []) := by
  rcases lineChars_lastText hr with ⟨hl, h⟩ | ⟨text, hl, h⟩
  · rw [h, hl, lineText_codeText hr.le_code hr.code_lt]
    rfl
  · rw [h, hl, lineText_codeText_append hr.le_code hr.code_lt (by decide)]
    rfl

theorem isLast_lastText : isLast r.code (lineChars r.lastText) = true := by
  rw [isLast_iff hr.le_code hr.code_lt (feed_notMem_lastText hr), WireReply.lastText]
  split
  · exact Or.inr ⟨0, rfl⟩
  · exact Or.inl (by simp)

/-- Lines that do not look like a last one are read on from. -/
theorem readMore_lines (inner : List WireLine) (hf : ∀ l ∈ inner, Lines.feed ∉ l.text)
    (hc : ∀ l ∈ inner, ¬ WireReply.Closes r.code l.text) (text : List Char) :
    readMore fault r.code text (inner.map WireLine.bytes ++ r.lastLine.bytes :: more) =
      (.ok (text ++ '\n' :: (inner.flatMap (fun l => lineChars l.text ++ ['\n']) ++
        lineChars (r.last.getD []))), more) := by
  induction inner generalizing text with
  -- Of the lines that are left, only the last one closes the reply.
  | nil =>
    simp [readMore, WireLine.bytes, WireReply.lastLine, isComplete_line, lineChars_append_ending,
      isLast_lastText hr, lineText_lastText hr]
  | cons l inner ih =>
    have goesOn : isLast r.code (lineChars l.text) = false := by
      rw [Bool.eq_false_iff]
      exact fun h => hc l (by simp)
        ((isLast_iff hr.le_code hr.code_lt (hf l (by simp))).mp h)
    have next := ih (fun l' hl' => hf l' (by simp [hl'])) (fun l' hl' => hc l' (by simp [hl']))
      (text ++ '\n' :: lineChars l.text)
    rw [List.map_cons, List.cons_append, readMore]
    simp only [WireLine.bytes, isComplete_line, lineChars_append_ending, goesOn, Bool.not_true,
      Bool.and_false, Bool.false_eq_true, if_false]
    simpa [WireLine.bytes] using next

theorem readLines_lines :
    readLines fault (r.lines.map WireLine.bytes ++ more) = (.ok r.reply, more) := by
  have before := hr.feed_notMem_before
  have inner := hr.not_closes
  unfold WireReply.lines WireReply.reply
  split
  -- A reply on one line, and one whose first line is followed by others.
  · rename_i hb
    simp only [List.map_cons, List.map_nil, List.singleton_append, readLines, nextLine_cons,
      WireReply.lastLine, opening_lastText hr, lineText_lastText hr, hb, List.flatMap_nil,
      List.nil_append]
  · rename_i first rest hb
    rw [hb] at before inner
    have hyphen := lineChars_encodeChars_append ['-'] (by simp) first.text
    have firstLine : lineChars (WireReply.digits r.code ++ 0x2D :: first.text) =
        codeText r.code ++ '-' :: lineChars first.text := by
      rw [lineChars_digits_append hr.le_code hr.code_lt]
      exact congrArg _ hyphen
    have opened : opening (codeText r.code ++ '-' :: lineChars first.text) =
        .ok (r.code, true) := by
      rw [opening, code?_codeText hr.le_code hr.code_lt]
      rfl
    have continued := readMore_lines hr fault more rest
      (fun l hl => before l (by simp [hl])) (fun l hl => inner l (by simpa using hl))
      (lineChars first.text)
    simp only [List.map_cons, List.map_append, List.map_nil, List.cons_append, List.append_assoc,
      List.nil_append, readLines, nextLine_cons, firstLine, opened,
      lineText_codeText_append hr.le_code hr.code_lt (show '-'.toNat < 0x80 by decide), continued,
      hb]
    simp

end Reply

/-- A reader takes the bytes of one reply, whatever follows them and however the connection ends. -/
theorem read_bytes {r : WireReply} (hr : r.Legible) (fault : Option IoFault) (rest : Bytes) :
    read fault (r.bytes ++ rest) = (.ok r.reply, rest) := by
  simp only [read, WireReply.bytes, split_lines (feed_notMem_lines hr), readLines_lines hr,
    Lines.flatten_split]

end FtpReply

end InstallMedia
