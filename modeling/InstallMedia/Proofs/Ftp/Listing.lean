import InstallMedia.Ftp.Listing
import InstallMedia.Proofs.Ftp.Wire
import InstallMedia.Proofs.Stream.Copy
import InstallMedia.Proofs.Text.Split

/-!
# Listings as they are written

A listing is written name by name, each on a line of its own.  The lines may end in either way, some
of them may be blank, and the last one need not end.  The names are read back whatever the choice.

## Main definitions

* `Listing.Sheet`: a listing as it is written, with its `bytes` and its `names`

## Main results

* `Listing.names_of_delivers`: the names are read from a feed that delivers the bytes
-/

namespace InstallMedia.Listing

/-- A listing as it is written: lines with their ends, and one that lacks an end. -/
structure Sheet where
  lines : List (String × LineEnd)
  last : String := ""

namespace Sheet

/-- The texts on the lines. -/
def texts (sheet : Sheet) : List String := sheet.lines.map (·.1) ++ [sheet.last]

def bytes (sheet : Sheet) : Bytes :=
  (sheet.lines.flatMap fun l => Utf8.encode l.1 ++ l.2.bytes) ++ Utf8.encode sheet.last

/-- The texts that are not blank. -/
def names (sheet : Sheet) : List String := sheet.texts.filter (· ≠ "")

/-- No text can be taken for more than one line, or for a shorter one. -/
def WellFormed (sheet : Sheet) : Prop :=
  ∀ text ∈ sheet.texts, '\n' ∉ text.toList ∧ text.toList.getLast? ≠ some '\r'

end Sheet

/-- The characters that end a line. -/
def endChars : LineEnd → List Char
  | .crlf => ['\r', '\n']
  | .lf => ['\n']

theorem encodeChars_endChars (ending : LineEnd) :
    Utf8.encodeChars (endChars ending) = ending.bytes := by
  cases ending <;> rfl

variable {text : List Char}

/-- A text that does not end in a carriage return keeps all its characters. -/
theorem trimEnd_returns (h : text.getLast? ≠ some '\r') : Split.trimEnd (· = '\r') text = text := by
  apply Split.trimEnd_eq_self
  intro c hc
  simpa using fun same : c = '\r' => h (same ▸ hc)

/-- The end of a line is no part of the name. -/
theorem name_append_endChars (h : text.getLast? ≠ some '\r') (ending : LineEnd) :
    name (text ++ endChars ending) = text := by
  cases ending with
  | lf => simpa [name, endChars] using trimEnd_returns h
  | crlf =>
    have unfed : (text ++ ['\r', '\n']).dropLast = text ++ ['\r'] := by
      rw [← List.singleton_append, ← List.append_assoc, List.dropLast_concat]
    have trimmed : Split.trimEnd (· = '\r') (text ++ ['\r']) = Split.trimEnd (· = '\r') text :=
      Split.trimEnd_append_all text (by simp)
    rw [trimEnd_returns h] at trimmed
    simpa [name, endChars, unfed] using trimmed

theorem name_of_notMem (h : '\n' ∉ text) (h' : text.getLast? ≠ some '\r') : name text = text := by
  have unbroken : text.getLast? ≠ some '\n' := fun last => h (List.mem_of_getLast? last)
  rw [name, if_neg unbroken, trimEnd_returns h']

/-- One line is read before the others. -/
theorem namesOf_cons {raw : Bytes} {line : List Char} (h : Utf8.decodeChars raw = .ok line)
    {rest : List Bytes} {more : List String} (read : namesOf none rest = .ok more) :
    namesOf none (raw :: rest) =
      .ok (if name line = [] then more else String.ofList (name line) :: more) := by
  rw [namesOf, h, read]
  · rfl
  · simp

/-- Lines that end are read as the texts on them, before what comes after them. -/
theorem namesOf_lines {lines : List (String × LineEnd)}
    (clean : ∀ l ∈ lines, l.1.toList.getLast? ≠ some '\r') {rest : List Bytes} {more : List String}
    (read : namesOf none rest = .ok more) :
    namesOf none (lines.map (fun l => Utf8.encode l.1 ++ l.2.bytes) ++ rest) =
      .ok ((lines.map (·.1)).filter (· ≠ "") ++ more) := by
  induction lines with
  | nil => exact read
  | cons l lines ih =>
    obtain ⟨here, later⟩ := List.forall_mem_cons.mp clean
    have decoded : Utf8.decodeChars (Utf8.encode l.1 ++ l.2.bytes) =
        .ok (l.1.toList ++ endChars l.2) := by
      rw [Utf8.decodeChars_eq_ok_iff, ← encodeChars_endChars, Utf8.encode]
      simp [Utf8.encodeChars]
    rw [List.map_cons, List.cons_append, namesOf_cons decoded (ih later),
      name_append_endChars here, String.ofList_toList, List.map_cons]
    by_cases blank : l.1 = ""
    · simp [blank]
    · simp [blank]

/-- The last line is read as the text on it, though it does not end. -/
theorem namesOf_last {last : String} (unbroken : '\n' ∉ last.toList)
    (clean : last.toList.getLast? ≠ some '\r') :
    namesOf none (Lines.split (Utf8.encode last)) = .ok ([last].filter (· ≠ "")) := by
  by_cases blank : last = ""
  · subst blank
    rfl
  have written : Utf8.encode last ≠ [] := by
    intro nothing
    have length := Utf8.length_le_encodeChars last.toList
    rw [← Utf8.encode, nothing] at length
    exact blank (by simpa using length)
  have decoded : Utf8.decodeChars (Utf8.encode last) = .ok last.toList :=
    Utf8.decodeChars_eq_ok_iff.mpr rfl
  rw [Lines.split_of_notMem (Lines.feed_notMem_encode.mpr unbroken) written,
    namesOf_cons decoded (show namesOf none [] = .ok [] from rfl),
    name_of_notMem unbroken clean, String.ofList_toList]
  simp [blank]

/-- **The names of a listing** are read from what it is written as, whatever ends its lines. -/
theorem names_of_delivers {feed : Feed} {sheet : Sheet} (wellFormed : sheet.WellFormed)
    (h : feed.Delivers sheet.bytes) : names feed = .ok sheet.names := by
  obtain ⟨lines, last⟩ := sheet
  have onLines : ∀ l ∈ lines, '\n' ∉ l.1.toList ∧ l.1.toList.getLast? ≠ some '\r' :=
    fun l hl => wellFormed l.1 (List.mem_append_left _ (List.mem_map_of_mem hl))
  obtain ⟨unbroken, clean⟩ := wellFormed last (List.mem_append_right _ (List.mem_singleton.mpr rfl))
  -- The lines are cut as they were put together.
  let written : List WireLine := lines.map fun l => ⟨Utf8.encode l.1, l.2⟩
  have one_line : ∀ l ∈ written, Lines.feed ∉ l.text := by
    intro _ hm
    obtain ⟨l, hl, rfl⟩ := List.mem_map.mp hm
    exact Lines.feed_notMem_encode.mpr (onLines l hl).1
  have cut := FtpReply.split_lines one_line (Utf8.encode last)
  rw [List.flatMap_map, List.map_map] at cut
  rw [names, h]
  change namesOf none (Lines.split (_ ++ Utf8.encode last)) = _
  rw [Sheet.names, Sheet.texts, List.filter_append]
  exact cut ▸ namesOf_lines (fun l hl => (onLines l hl).2) (namesOf_last unbroken clean)

end InstallMedia.Listing
