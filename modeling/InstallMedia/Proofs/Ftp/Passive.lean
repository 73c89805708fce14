import InstallMedia.Proofs.Ftp.History
import InstallMedia.Proofs.Ftp.Obliging
import InstallMedia.Proofs.Ftp.Telling
import InstallMedia.Proofs.Text.Split
import Mathlib.Data.List.Forall2

/-!
# Ports in passive mode

A reply announces a port by six numbers in parentheses, with commas between them.  What it announces
is read exactly: a plus sign, leading zeros and white space are allowed, other numbers and other
fields are not.  The port decides where a transfer goes, and nothing else in the reply does.

## Main definitions

* `Passive.Announces`: a text that announces a port
* `Passive.IsCutWhole`: a text that is cut between its characters to find its group
* `Connection.Use.transfer?`: the commands of a use that opens a data connection
* `Connection.ToldOnce`: a connection whose server was not asked for another data connection

## Main results

* `Passive.port?_eq_some_iff`: which ports are read from a text
* `Passive.announces_written`: every port is read back
* `Connection.Use.perform_of_passive`: what a reply in passive mode decides
-/

namespace InstallMedia.Passive

variable {field cs group text : List Char} {n port : Nat}

/-! ## Numbers -/

/-- Decimal digits of a number below 256, perhaps with leading zeros. -/
structure IsNumber (digits : List Char) (n : Nat) : Prop where
  some_digit : digits ≠ []
  all_digits : ∀ c ∈ digits, c.isDigit = true
  value : Nat.ofDigitChars 10 digits 0 = n
  small : n < 256

/-- A field with a number in it, perhaps after a plus sign, and with white space around it. -/
inductive Writes : List Char → Nat → Prop where
  | mk {front sign digits back : List Char} {n : Nat}
      (front_blank : ∀ c ∈ front, Lines.isBlankSpace c = true)
      (signed : sign = [] ∨ sign = ['+']) (number : IsNumber digits n)
      (back_blank : ∀ c ∈ back, Lines.isBlankSpace c = true) :
      Writes (front ++ (sign ++ digits) ++ back) n

/-- The digits of a number are read from the first one to the last. -/
theorem foldl_digitValue (digits : List Char) (n : Nat) :
    digits.foldl (fun n c => n * 10 + FtpReply.digitValue c) n =
      Nat.ofDigitChars 10 digits n := by
  rw [Nat.ofDigitChars]
  congr 1
  funext n c
  rw [Nat.mul_comm]
  rfl

/-- A digit is none of the other characters that count in a reply. -/
theorem of_isDigit {c : Char} (h : c.isDigit = true) :
    c ≠ '+' ∧ c ≠ ',' ∧ c ≠ ')' ∧ Lines.isBlankSpace c = false := by
  obtain ⟨low, high⟩ : 48 ≤ c.toNat ∧ c.toNat ≤ 57 := by
    simpa [Char.isDigit, UInt32.le_iff_toNat_le] using h
  have blank : Lines.isBlankSpace c = false := by
    simp only [Lines.isBlankSpace, Bool.or_eq_false_iff, Bool.and_eq_false_iff,
      decide_eq_false_iff_not]
    omega
  refine ⟨?_, ?_, ?_, blank⟩ <;> rintro rfl <;> simp at low

theorem ite_eq_some_iff {digits : List Char} :
    (if digits ≠ [] ∧ digits.all Char.isDigit = true then
      let n := digits.foldl (fun n c => n * 10 + FtpReply.digitValue c) 0
      if n < 256 then some n else none
    else none) = some n ↔ IsNumber digits n := by
  rw [foldl_digitValue]
  dsimp only
  constructor
  · intro h
    split at h
    · rename_i written
      split at h
      · rename_i small
        obtain rfl := Option.some.inj h
        exact ⟨written.1, List.all_eq_true.mp written.2, rfl, small⟩
      · cases h
    · cases h
  · rintro ⟨some_digit, all_digits, rfl, small⟩
    rw [if_pos ⟨some_digit, List.all_eq_true.mpr all_digits⟩, if_pos small]

/-- A text is read as a number below 256 if it is one, perhaps after a plus sign. -/
theorem number?_eq_some_iff : number? cs = some n ↔
    ∃ sign digits, cs = sign ++ digits ∧ (sign = [] ∨ sign = ['+']) ∧ IsNumber digits n := by
  rw [number?.eq_def]
  split
  · rename_i rest
    rw [ite_eq_some_iff]
    constructor
    · intro h
      exact ⟨['+'], rest, rfl, Or.inr rfl, h⟩
    · rintro ⟨sign, digits, whole, rfl | rfl, h⟩
      · -- A plus sign is no digit.
        have plus : '+' ∈ digits := by rw [← List.nil_append digits, ← whole]; simp
        exact absurd rfl (of_isDigit (h.all_digits '+' plus)).1
      · rwa [List.tail_eq_of_cons_eq whole]
  · rename_i unsigned
    rw [ite_eq_some_iff]
    constructor
    · intro h
      exact ⟨[], cs, rfl, Or.inl rfl, h⟩
    · rintro ⟨sign, digits, rfl, rfl | rfl, h⟩
      · exact h
      · exact absurd rfl (unsigned digits)

/-- The characters of a number stay when white space is trimmed off, and separate nothing. -/
theorem IsNumber.clean {sign digits : List Char} (h : IsNumber digits n)
    (signed : sign = [] ∨ sign = ['+']) {c : Char} (hc : c ∈ sign ++ digits) :
    c ≠ ',' ∧ c ≠ ')' ∧ Lines.isBlankSpace c = false := by
  rcases List.mem_append.mp hc with hc | hc
  · rcases signed with rfl | rfl
    · cases hc
    · obtain rfl := List.mem_singleton.mp hc
      exact ⟨by simp, by simp, rfl⟩
  · exact (of_isDigit (h.all_digits c hc)).2

/-- A field is read as a number if it is one with white space around it. -/
theorem number?_trim_eq_some_iff :
    number? (Split.trim Lines.isBlankSpace field) = some n ↔ Writes field n := by
  rw [number?_eq_some_iff]
  constructor
  · rintro ⟨sign, digits, middle, signed, number⟩
    obtain ⟨front, back, whole, front_blank, back_blank⟩ :=
      Split.exists_eq_trim Lines.isBlankSpace field
    rw [whole, middle]
    exact ⟨front_blank, signed, number, back_blank⟩
  · rintro ⟨front_blank, signed, number, back_blank⟩
    exact ⟨_, _, Split.trim_append front_blank (fun c hc => (number.clean signed hc).2.2)
      back_blank, signed, number⟩

/-- No field with a number in it is cut by what separates the fields, or ends them. -/
theorem Writes.notMem (h : Writes field n) : ',' ∉ field ∧ ')' ∉ field := by
  rcases h with ⟨front_blank, signed, number, back_blank⟩
  rename_i front sign digits back
  have clean : ∀ c ∈ front ++ (sign ++ digits) ++ back, c ≠ ',' ∧ c ≠ ')' := by
    intro c hc
    have of_blank : Lines.isBlankSpace c = true → c ≠ ',' ∧ c ≠ ')' := by
      intro blank
      constructor <;> rintro rfl <;> cases blank
    rcases List.mem_append.mp hc with hc | hc
    · rcases List.mem_append.mp hc with hc | hc
      · exact of_blank (front_blank c hc)
      · exact ⟨(number.clean signed hc).1, (number.clean signed hc).2.1⟩
    · exact of_blank (back_blank c hc)
  exact ⟨fun h => (clean _ h).1 rfl, fun h => (clean _ h).2 rfl⟩

/-! ## Ports -/

theorem mapM_eq_some_iff {α β : Type} {f : α → Option β} {xs : List α} {ys : List β} :
    xs.mapM f = some ys ↔ List.Forall₂ (fun x y => f x = some y) xs ys := by
  induction xs generalizing ys with
  | nil => cases ys <;> simp
  | cons x xs ih =>
    rw [List.mapM_cons]
    cases ys with
    | nil => simp [Option.bind_eq_some_iff]
    | cons y ys => simp [Option.bind_eq_some_iff, ih]

theorem notMem_of_written {fields : List (List Char)} {numbers : List Nat}
    (h : List.Forall₂ Writes fields numbers) : ∀ field ∈ fields, ',' ∉ field ∧ ')' ∉ field := by
  induction h with
  | nil => simp
  | cons first _ ih => exact List.forall_mem_cons.mpr ⟨first.notMem, ih⟩

/-- Numbers are read from fields with a comma between them. -/
theorem numbers?_eq_some_iff {numbers : List Nat} : numbers? group = some numbers ↔
    ∃ fields, fields ≠ [] ∧ [','].intercalate fields = group ∧
      List.Forall₂ Writes fields numbers := by
  rw [numbers?, mapM_eq_some_iff]
  simp only [number?_trim_eq_some_iff]
  constructor
  · intro h
    exact ⟨_, Split.fields_ne_nil group, Split.intercalate_fields ',' group, h⟩
  · rintro ⟨fields, some_field, rfl, h⟩
    have plain : ∀ field ∈ fields, ',' ∉ field := fun field hf => (notMem_of_written h field hf).1
    rwa [Split.fields_eq_iff.mpr ⟨some_field, plain, rfl⟩]

/-- A text that announces a port: after its first opening parenthesis, and up to a closing one, six
fields with a comma between them have the numbers of which the last two make up the port. -/
inductive Announces : List Char → Nat → Prop where
  | mk {before after : List Char} {fields : List (List Char)} {a b c d high low : Nat}
      (first : '(' ∉ before) (written : List.Forall₂ Writes fields [a, b, c, d, high, low]) :
      Announces (before ++ '(' :: ([','].intercalate fields ++ ')' :: after)) (256 * high + low)

theorem portOf?_eq_some_iff {numbers : List Nat} : portOf? numbers = some port ↔
    ∃ a b c d high low, numbers = [a, b, c, d, high, low] ∧ 256 * high + low = port := by
  constructor
  · intro h
    rw [portOf?.eq_def] at h
    split at h
    · rename_i a b c d high low
      exact ⟨a, b, c, d, high, low, rfl, by rw [Nat.mul_comm]; exact Option.some.inj h⟩
    · cases h
  · rintro ⟨a, b, c, d, high, low, rfl, rfl⟩
    rw [portOf?, Nat.mul_comm]

theorem group?_eq_some_iff : group? text = some group ↔ ∃ before after,
    text = before ++ '(' :: (group ++ ')' :: after) ∧ '(' ∉ before ∧ ')' ∉ group := by
  simp only [group?, bind, Option.bind_eq_some_iff, Split.atFirst?_eq_some_iff, Prod.exists,
    Option.some.injEq]
  constructor
  · rintro ⟨before, _, ⟨rfl, first⟩, _, after, ⟨rfl, none_before⟩, rfl⟩
    exact ⟨before, after, rfl, first, none_before⟩
  · rintro ⟨before, after, rfl, first, none_before⟩
    exact ⟨before, _, ⟨rfl, first⟩, group, after, ⟨rfl, none_before⟩, rfl⟩

/-- **Ports are read exactly**: what a text announces is read from it, and nothing else. -/
theorem port?_eq_some_iff {text : String} :
    port? text = some port ↔ Announces text.toList port := by
  simp only [port?, bind, Option.bind_eq_some_iff, group?_eq_some_iff, numbers?_eq_some_iff,
    portOf?_eq_some_iff]
  constructor
  · rintro ⟨_, ⟨before, after, whole, first, -⟩, _, ⟨fields, -, rfl, written⟩,
      a, b, c, d, high, low, rfl, rfl⟩
    rw [whole]
    exact ⟨first, written⟩
  · intro h
    generalize text.toList = text at h
    obtain ⟨first, written⟩ := h
    rename_i before after fields a b c d high low
    have some_field : fields ≠ [] := by rintro rfl; cases written
    have closing : ')' ∉ [','].intercalate fields := by
      intro h
      rcases Split.of_mem_intercalate h with h | ⟨field, hf, h⟩
      · simp at h
      · exact (notMem_of_written written field hf).2 h
    exact ⟨_, ⟨before, after, rfl, first, closing⟩, _, ⟨fields, some_field, rfl, written⟩,
      a, b, c, d, high, low, rfl, rfl⟩

/-! ## Ports that are written out -/

/-- A number below 256, written without leading zeros. -/
theorem writes_toDigits (h : n < 256) : Writes (Nat.toDigits 10 n) n := by
  have number : IsNumber (Nat.toDigits 10 n) n :=
    ⟨Nat.toDigits_ne_nil, fun _ hc => Nat.isDigit_of_mem_toDigits (by decide) (by decide) hc,
      Nat.ofDigitChars_ten_toDigits, h⟩
  have written : Writes ([] ++ ([] ++ Nat.toDigits 10 n) ++ []) n :=
    .mk (by simp) (Or.inl rfl) number (by simp)
  rwa [List.append_nil] at written

/-- An address and a port, as a server writes them out: six numbers with commas between them. -/
def written (a b c d port : Nat) : List Char :=
  [','].intercalate ([a, b, c, d, port / 256, port % 256].map (Nat.toDigits 10))

/-- Every port is read from where it is written out, whatever the address is. -/
theorem announces_written {before : List Char} (first : '(' ∉ before) {a b c d : Nat}
    (ha : a < 256) (hb : b < 256) (hc : c < 256) (hd : d < 256) (h : port < 65536)
    (after : List Char) :
    Announces (before ++ '(' :: (written a b c d port ++ ')' :: after)) port := by
  have high : port / 256 < 256 := by omega
  have low : port % 256 < 256 := Nat.mod_lt _ (by decide)
  have fields : List.Forall₂ Writes
      ([a, b, c, d, port / 256, port % 256].map (Nat.toDigits 10))
      [a, b, c, d, port / 256, port % 256] := by
    simp only [List.map_cons, List.map_nil, List.forall₂_cons]
    exact ⟨writes_toDigits ha, writes_toDigits hb, writes_toDigits hc, writes_toDigits hd,
      writes_toDigits high, writes_toDigits low, .nil⟩
  have announced : Announces (before ++ '(' :: (written a b c d port ++ ')' :: after))
      (256 * (port / 256) + port % 256) := .mk first fields
  rwa [Nat.div_add_mod] at announced

/-! ## Offsets -/

/-- The bytes of the parentheses. -/
def openingByte : UInt8 := 0x28

def closingByte : UInt8 := 0x29

/-- The offset of the first opening parenthesis. -/
def start (bytes : Bytes) : Nat := bytes.idxOf openingByte

/-- The offset of the first closing parenthesis after it. -/
def stop (bytes : Bytes) : Nat := start bytes + (bytes.drop (start bytes)).idxOf closingByte

theorem openingByte_mem_iff {cs : List Char} :
    openingByte ∈ Utf8.encodeChars cs ↔ '(' ∈ cs :=
  Utf8.mem_encodeChars_ascii (by decide)

theorem closingByte_mem_iff {cs : List Char} :
    closingByte ∈ Utf8.encodeChars cs ↔ ')' ∈ cs :=
  Utf8.mem_encodeChars_ascii (by decide)

/-- A text can be cut at an offset in its bytes: no character stands on both sides. -/
def IsBoundary (text : List Char) (offset : Nat) : Prop :=
  ∃ front back, text = front ++ back ∧ (Utf8.encodeChars front).length = offset

/-- The first opening parenthesis stands behind whole characters. -/
theorem start_eq {before : List Char} (first : '(' ∉ before) (after : List Char) :
    start (Utf8.encodeChars (before ++ '(' :: after)) = (Utf8.encodeChars before).length ∧
      (Utf8.encodeChars (before ++ '(' :: after)).drop (Utf8.encodeChars before).length =
        openingByte :: Utf8.encodeChars after := by
  have plain : openingByte ∉ Utf8.encodeChars before := openingByte_mem_iff.not.mpr first
  have whole : Utf8.encodeChars (before ++ '(' :: after) =
      Utf8.encodeChars before ++ openingByte :: Utf8.encodeChars after :=
    Utf8.encodeChars_append_cons _ _ (by decide)
  rw [whole]
  constructor
  · rw [start, List.idxOf_append_of_notMem plain, List.idxOf_cons_self, Nat.add_zero]
  · rw [List.drop_left]

/-- The first closing parenthesis after it stands behind the group. -/
theorem stop_eq {before group : List Char} (first : '(' ∉ before) (none_before : ')' ∉ group)
    (after : List Char) :
    stop (Utf8.encodeChars (before ++ '(' :: (group ++ ')' :: after))) =
      (Utf8.encodeChars before).length + ((Utf8.encodeChars group).length + 1) := by
  obtain ⟨here, behind⟩ := start_eq first (group ++ ')' :: after)
  have plain : closingByte ∉ openingByte :: Utf8.encodeChars group := by
    rw [List.mem_cons, closingByte_mem_iff]
    rintro (same | inside)
    · exact absurd same (by decide)
    · exact none_before inside
  have rest : Utf8.encodeChars (group ++ ')' :: after) =
      Utf8.encodeChars group ++ closingByte :: Utf8.encodeChars after :=
    Utf8.encodeChars_append_cons _ _ (by decide)
  rw [stop, here, behind, rest, ← List.cons_append, List.idxOf_append_of_notMem plain,
    List.idxOf_cons_self]
  rfl

theorem isBoundary_start {text : List Char} (h : openingByte ∈ Utf8.encodeChars text) :
    IsBoundary text (start (Utf8.encodeChars text)) := by
  obtain ⟨before, after, rfl, first⟩ :=
    List.eq_append_cons_of_mem (openingByte_mem_iff.mp h)
  exact ⟨before, '(' :: after, rfl, (start_eq first after).1.symm⟩

/-- No group is found just if one of the parentheses is not. -/
theorem group?_eq_none_iff {text : List Char} : group? text = none ↔
    openingByte ∉ Utf8.encodeChars text ∨
      closingByte ∉ (Utf8.encodeChars text).drop (start (Utf8.encodeChars text)) := by
  constructor
  · intro h
    by_contra! found
    obtain ⟨opening, closing⟩ := found
    obtain ⟨before, after, rfl, first⟩ :=
      List.eq_append_cons_of_mem (openingByte_mem_iff.mp opening)
    rw [(start_eq first after).1, (start_eq first after).2, List.mem_cons,
      closingByte_mem_iff] at closing
    rcases closing with closing | closing
    · exact absurd closing (by decide)
    · obtain ⟨group, rest, rfl, none_before⟩ := List.eq_append_cons_of_mem closing
      simp [group?_eq_some_iff.mpr ⟨before, rest, rfl, first, none_before⟩] at h
  · intro missing
    rw [Option.eq_none_iff_forall_not_mem]
    intro group found
    obtain ⟨before, after, rfl, first, -⟩ := group?_eq_some_iff.mp found
    rcases missing with missing | missing
    · exact missing (openingByte_mem_iff.mpr (by simp))
    · rw [(start_eq first _).1, (start_eq first _).2] at missing
      exact missing (List.mem_cons_of_mem _ (closingByte_mem_iff.mpr (by simp)))

/-- A group that is cut out of a text between its parentheses, at offsets in its bytes. -/
structure IsCut (text group : List Char) : Prop where
  lt : start (Utf8.encodeChars text) < stop (Utf8.encodeChars text)
  from_start : IsBoundary text (start (Utf8.encodeChars text) + 1)
  to_stop : IsBoundary text (stop (Utf8.encodeChars text))
  eq : ((Utf8.encodeChars text).take (stop (Utf8.encodeChars text))).drop
    (start (Utf8.encodeChars text) + 1) = Utf8.encodeChars group

theorem isCut_of_group? {text group : List Char} (h : group? text = some group) :
    IsCut text group := by
  obtain ⟨before, after, rfl, first, none_before⟩ := group?_eq_some_iff.mp h
  obtain ⟨here, behind⟩ := start_eq first (group ++ ')' :: after)
  have there := stop_eq first none_before after
  -- The offsets stand before a parenthesis each, and the group is what is between them.
  refine ⟨?_, ?_, ?_, ?_⟩
  · rw [here, there]
    omega
  · rw [here]
    exact ⟨before ++ ['('], group ++ ')' :: after, by simp, by simp [Utf8.encodeChars,
      Utf8.encodeChar]⟩
  · rw [there]
    exact ⟨before ++ '(' :: group, ')' :: after, by simp, by simp [Utf8.encodeChars,
      Utf8.encodeChar]⟩
  · have length : (Utf8.encodeChars before).length + ((Utf8.encodeChars group).length + 1) -
        ((Utf8.encodeChars before).length + 1) = (Utf8.encodeChars group).length := by omega
    rw [here, there, List.drop_take, length, ← List.drop_drop, behind,
      Utf8.encodeChars_append_cons group after (by decide)]
    exact List.take_left

/-- The search for a group in a text cuts the text between its characters only. -/
structure IsCutWhole (text : List Char) : Prop where
  opening : openingByte ∈ Utf8.encodeChars text →
    IsBoundary text (start (Utf8.encodeChars text))
  missing : group? text = none ↔ openingByte ∉ Utf8.encodeChars text ∨
    closingByte ∉ (Utf8.encodeChars text).drop (start (Utf8.encodeChars text))
  found : ∀ group, group? text = some group → IsCut text group

theorem isCutWhole (text : List Char) : IsCutWhole text :=
  ⟨isBoundary_start, group?_eq_none_iff, fun _ => isCut_of_group?⟩

end InstallMedia.Passive

namespace InstallMedia.Connection

open Attempt (Meets)

/-! ## Transfers -/

/-- The two commands of a use that opens a data connection: the type of its data, and what uses the
data connection. -/
def Use.transfer? : Use → Option (String × String)
  | .download path => some ("TYPE I", "RETR " ++ path)
  | .listing directory => some ("TYPE A", listingCommand directory)
  | .upload name => some ("TYPE I", "STOR " ++ name)
  | .login _ _ | .changeDirectory _ | .drain | .quit => none

variable {first c c₁ c₂ : Connection} {use : Use} {type line : String} {r reply : FtpReply}
  {fault : FtpFault} {events : List FtpEvent} {port : Nat}

theorem expect_of_group {group : Nat} (h : command line c = (.ok reply, c₁))
    (accepted : reply.group = group) : expect line group c = (.ok reply, c₁) := by
  rw [expect, Attempt.bind_of_ok h, check_of_group accepted]
  rfl

/-- A later state of the connection `first`, whose server was told these events since, and then was
not asked for a data connection any more. -/
def ToldOnce (first : Connection) (events : List FtpEvent) (c : Connection) : Prop :=
  ∃ more, Told first (events ++ more) c ∧ ∀ host port, .dialled host port ∉ more

theorem Told.once (h : Told first events c) : ToldOnce first events c :=
  ⟨[], by rwa [List.append_nil], by simp⟩

theorem ToldOnce.told (h : ToldOnce first events c) {event : FtpEvent} {c' : Connection}
    (told : ∀ events, Told first events c → Told first (events ++ [event]) c')
    (plain : ∀ host port, event ≠ .dialled host port) : ToldOnce first events c' := by
  obtain ⟨more, h, none_more⟩ := h
  refine ⟨more ++ [event], by simpa using told _ h, fun host port hm => ?_⟩
  rcases List.mem_append.mp hm with hm | hm
  · exact none_more host port hm
  · exact plain host port (List.mem_singleton.mp hm).symm

theorem readReply_once : Meets (ToldOnce first events) readReply (fun _ => ToldOnce first events)
    (ToldOnce first events) := by
  rintro c ⟨more, h, none_more⟩
  exact (readReply_told.weaken (fun _ h => h) (fun _ _ h => ⟨more, h, none_more⟩)
    fun _ h => ⟨more, h, none_more⟩) c h

theorem command_once (line : String) : Meets (ToldOnce first events) (command line)
    (fun _ => ToldOnce first events) (ToldOnce first events) := by
  refine Meets.bind (Q := fun _ => ToldOnce first events) ?_ fun _ => readReply_once
  rintro c h
  rw [send]
  by_cases pending : c.state = .awaitingReply
  · rw [if_pos pending]
    exact h
  · rw [if_neg pending]
    cases c.server.blocked c.transcript with
    | some cause => exact h
    | none => exact h.told (fun _ h => h.tell _) (by simp)

/-- The port that is named in the reply is asked for, and nothing else is. -/
theorem openData_once (h : command "PASV" c₁ = (.ok reply, c₂)) (accepted : reply.group = 2)
    (named : Passive.port? reply.text = some port) (told : Told first events c₂) (line : String) :
    ToldOnce first (events ++ [.dialled first.peer port]) (openData line c₁).2 := by
  have known : Passive.port reply = .ok port := by rw [Passive.port, named]
  -- From the dialling on, nothing is told but the command of the transfer.
  rw [openData, Attempt.bind_of_ok (expect_of_group h accepted), known, Attempt.ofExcept_ok_bind]
  have dialled : Meets (Told first events) (dial port)
      (fun _ => ToldOnce first (events ++ [.dialled first.peer port]))
      (ToldOnce first (events ++ [.dialled first.peer port])) :=
    (dial_told port).weaken (fun _ h => h) (fun _ _ h => h.once) fun _ h => h.once
  refine Meets.snd (dialled.bind fun _ => (command_once line).bind fun reply => ?_) told
  split
  · exact .pure fun _ h => h
  · exact .fail fun _ h => h

/-- The end of a download, once its data connection is open. -/
def leaveDownload : Session Feed := do
  Attempt.modify fun c => { c with state := .awaitingReply }
  let c ← Attempt.get
  return c.server.download c.transcript

/-- The end of a listing, once its data connection is open. -/
def readListing : Session (List String) := do
  let c ← Attempt.get
  let names ← Attempt.ofExcept
    ((Listing.names (c.server.download c.transcript)).mapError FtpFault.io)
  let reply ← readReply
  Attempt.ofExcept (check "NLST" reply 2)
  return names

theorem leaveDownload_once : Meets (ToldOnce first events) leaveDownload
    (fun _ => ToldOnce first events) (ToldOnce first events) := by
  rintro c ⟨more, told, none_more⟩
  exact ⟨more, ⟨told.server_eq, told.peer_eq, told.transcript_eq⟩, none_more⟩

theorem readListing_once : Meets (ToldOnce first events) readListing
    (fun _ => ToldOnce first events) (ToldOnce first events) := by
  refine Meets.bind (Q := fun _ => ToldOnce first events) (.get fun _ h => h) fun c => ?_
  refine .ofExcept_bind (fun names _ => readReply_once.bind fun reply => ?_) fun _ h => h
  refine Meets.bind (Q := fun _ => ToldOnce first events) ?_ fun _ => .pure fun _ h => h
  exact .ofExcept (fun _ _ _ h => h) fun _ _ _ h => h

theorem sendUpload_once : Meets (fun s => ToldOnce first events s.2) sendUpload
    (fun _ s => ToldOnce first events s.2) fun s => ToldOnce first events s.2 := by
  refine Meets.bind (Q := fun s' s => s' = s ∧ ToldOnce first events s.2)
    (.get fun _ h => ⟨rfl, h⟩) fun s => ?_
  refine Meets.bind (Q := fun _ s => ToldOnce first events s.2) ?_ fun _ => ?_
  · rintro _ ⟨rfl, told⟩
    exact told.told (fun _ h => h.tell _) (by simp)
  refine .ofExcept_bind (fun sent _ => ?_) fun _ h => h
  refine (readReply_once.part fun _ _ => rfl).bind fun reply => ?_
  have checked : Meets (ToldOnce first events) (Attempt.ofExcept (check "STOR" reply 2))
      (fun _ => ToldOnce first events) (ToldOnce first events) :=
    .ofExcept (fun _ _ _ h => h) fun _ _ _ h => h
  exact (checked.part fun _ _ => rfl).bind fun _ => .pure fun _ h => h

/-- Beside a feed, one dialogue after another is one after another. -/
theorem Use.alone_bind {α β : Type} (x : Session α) (f : α → Session β) :
    alone (x >>= f) = alone x >>= fun a => alone (f a) := by
  funext s
  rw [Attempt.bind_apply, alone, Attempt.on_apply, Attempt.bind_apply, alone, Attempt.on_apply]
  cases x s.2 with
  | mk result c => cases result <;> rfl

theorem Use.alone_discard {α : Type} (x : Session α) : alone (discard x) = discard (alone x) :=
  alone_bind x _

/-- A transfer has the type of its data accepted, opens a data connection, and asks for no other one
after that. -/
theorem Use.exists_rest (h : use.transfer? = some (type, line)) :
    ∃ rest : Attempt (Feed × Connection) FtpFault Unit,
      (use.perform = discard (alone (expect type 2)) >>= fun _ =>
        alone (openData line) >>= fun _ => rest) ∧
      ∀ first events, Meets (fun s => ToldOnce first events s.2) rest
        (fun _ s => ToldOnce first events s.2) fun s => ToldOnce first events s.2 := by
  cases use with
  | download path =>
    obtain ⟨rfl, rfl⟩ : "TYPE I" = type ∧ "RETR " ++ path = line := by simpa [transfer?] using h
    refine ⟨discard (alone leaveDownload), ?_, fun first events =>
      (leaveDownload_once.part fun _ _ => rfl).discard⟩
    change discard (alone (discard (expect "TYPE I" 2) >>= fun _ =>
      openData ("RETR " ++ path) >>= fun _ => leaveDownload)) = _
    simp only [alone_bind, alone_discard, Attempt.discard_bind]
  | listing directory =>
    obtain ⟨rfl, rfl⟩ : "TYPE A" = type ∧ listingCommand directory = line := by
      simpa [transfer?] using h
    refine ⟨discard (alone readListing), ?_, fun first events =>
      (readListing_once.part fun _ _ => rfl).discard⟩
    change discard (alone (discard (expect "TYPE A" 2) >>= fun _ =>
      openData (listingCommand directory) >>= fun _ => readListing)) = _
    simp only [alone_bind, alone_discard, Attempt.discard_bind]
  | upload name =>
    obtain ⟨rfl, rfl⟩ : "TYPE I" = type ∧ "STOR " ++ name = line := by simpa [transfer?] using h
    refine ⟨discard sendUpload, ?_, fun first events => sendUpload_once.discard⟩
    change discard (discard (alone (expect "TYPE I" 2)) >>= fun _ =>
      alone (openData ("STOR " ++ name)) >>= fun _ => sendUpload) = _
    simp only [Attempt.discard_bind]
  | login _ _ | changeDirectory _ | drain | quit => simp [transfer?] at h

/-- What a transfer does once the type of its data is accepted. -/
theorem Use.perform_of_typed (h : use.transfer? = some (type, line))
    (typed : expect type 2 c = (.ok r, c₁)) (feed : Feed) :
    (∀ fault c₂, openData line c₁ = (.error fault, c₂) →
      use.perform (feed, c) = (.error fault, feed, c₂)) ∧
    ∀ first events, ToldOnce first events (openData line c₁).2 →
      ToldOnce first events (use.perform (feed, c)).2.2 := by
  obtain ⟨rest, whole, once⟩ := use.exists_rest h
  have begun : discard (alone (expect type 2)) (feed, c) = (.ok (), feed, c₁) := by
    rw [Attempt.discard_apply, alone, Attempt.on_apply, typed]
    rfl
  have opening : alone (openData line) (feed, c₁) =
    ((openData line c₁).1, feed, (openData line c₁).2) := rfl
  rw [whole, Attempt.bind_of_ok begun]
  constructor
  · intro fault c₂ failed
    exact Attempt.bind_of_error (by rw [opening, failed])
  · intro first events told
    cases hd : openData line c₁ with
    | mk result c₂ =>
      rw [hd] at told opening
      cases result with
      | error fault =>
        rw [Attempt.bind_of_error opening]
        exact told
      | ok _ =>
        rw [Attempt.bind_of_ok opening]
        exact (once first events).snd told

/-- On an idle connection a command is sent, and the connection stays idle. -/
theorem idle_of_command (h : command line c = (.ok reply, c₁)) : c₁.state = .idle := by
  cases pending : c.state with
  | idle =>
    have still := command_unhindered line c pending
    rwa [h] at still
  | awaitingReply =>
    rw [command_of_awaiting pending] at h
    cases h

/-- **Passive mode decides only the port.**  When a transfer asks for a data connection and the
reply announces a port, it is that port of the server's host that is dialled, once, whatever host
the reply names; so is every port that is written out in a reply.  When the reply announces no
port, the transfer fails on the reply, and nothing is told after `PASV`.  And no text is cut inside
a character, or outside of itself, to find what is between its parentheses. -/
theorem Use.perform_of_passive (h : use.transfer? = some (type, line))
    (typed : expect type 2 c = (.ok r, c₁)) (passive : command "PASV" c₁ = (.ok reply, c₂))
    (accepted : reply.group = 2) (feed : Feed) :
    (∀ port, Passive.Announces reply.text.toList port →
      ToldOnce c [asked type, asked "PASV", .dialled c.peer port] (use.perform (feed, c)).2.2) ∧
    (∀ before after a₁ a₂ a₃ a₄ port, '(' ∉ before → a₁ < 256 → a₂ < 256 → a₃ < 256 → a₄ < 256 →
      port < 65536 →
      reply.text.toList = before ++ '(' :: (Passive.written a₁ a₂ a₃ a₄ port ++ ')' :: after) →
      ToldOnce c [asked type, asked "PASV", .dialled c.peer port] (use.perform (feed, c)).2.2) ∧
    ((∀ port, ¬ Passive.Announces reply.text.toList port) →
      use.perform (feed, c) =
          (.error (.malformedReply s!"{reply.code} {reply.text}"), feed, c₂) ∧
        Told c [asked type, asked "PASV"] c₂ ∧ c₂.state = .idle) ∧
    ∀ text, Passive.IsCutWhole text := by
  have told : Told c [asked type, asked "PASV"] c₂ := by
    have begun := (expect_told type 2).of_ok (Told.refl c) (congrArg Prod.fst typed)
    rw [typed] at begun
    have listened := (command_told "PASV").of_ok begun (congrArg Prod.fst passive)
    rwa [passive] at listened
  obtain ⟨fails, once⟩ := use.perform_of_typed h typed feed
  have dials : ∀ port, Passive.Announces reply.text.toList port →
      ToldOnce c [asked type, asked "PASV", .dialled c.peer port] (use.perform (feed, c)).2.2 := by
    intro port announced
    have named := Passive.port?_eq_some_iff.mpr announced
    exact once _ _ (openData_once passive accepted named told line)
  refine ⟨dials, ?_, ?_, Passive.isCutWhole⟩
  · intro before after a₁ a₂ a₃ a₄ port first h₁ h₂ h₃ h₄ small text
    exact dials port (text ▸ Passive.announces_written first h₁ h₂ h₃ h₄ small after)
  · intro unannounced
    refine ⟨fails _ c₂ ?_, told, idle_of_command passive⟩
    have unnamed : Passive.port? reply.text = none := by
      rw [Option.eq_none_iff_forall_not_mem]
      intro port named
      exact unannounced port (Passive.port?_eq_some_iff.mp named)
    rw [openData, Attempt.bind_of_ok (expect_of_group passive accepted), Passive.port, unnamed]
    rfl

/-- At the mirror, the port that is announced is the one that is dialled. -/
theorem perform_download_dials :
    let c := Connection.greeted []
    ∃ r c₁ reply c₂, expect "TYPE I" 2 c = (.ok r, c₁) ∧ command "PASV" c₁ = (.ok reply, c₂) ∧
      reply.group = 2 ∧ Passive.Announces reply.text.toList 1024 ∧
      ToldOnce c [asked "TYPE I", asked "PASV", .dialled c.peer 1024]
        ((Use.download "a").perform ([], c)).2.2 := by
  intro c
  have typed : (expect "TYPE I" 2 c).1.toOption = some ⟨200, "Okay"⟩ := by decide +kernel
  have passive : (command "PASV" (expect "TYPE I" 2 c).2).1.toOption =
      some ⟨227, "Entering Passive Mode (127,0,0,1,4,0)"⟩ := by decide +kernel
  have announced := Passive.port?_eq_some_iff.mp
    (show Passive.port? "Entering Passive Mode (127,0,0,1,4,0)" = some 1024 by decide +kernel)
  have typed := Prod.ext (toOption_eq_some_iff.mp typed) rfl
  have passive := Prod.ext (toOption_eq_some_iff.mp passive) rfl
  exact ⟨_, _, _, _, typed, passive, rfl, announced,
    ((Use.download "a").perform_of_passive rfl typed passive rfl []).1 1024 announced⟩

end InstallMedia.Connection
