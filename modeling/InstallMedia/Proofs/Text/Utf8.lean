import InstallMedia.Text.Utf8
import Mathlib.Data.List.Basic

/-!
# Text and its bytes: the laws

The bytes of a character are spelled in one of four ways, and no two characters are spelled alike;
so a text is read back from its bytes, and bytes that are read as a text are the bytes of that text.
Bytes below `0x80` stand for themselves wherever they occur, also where a lossy reader sees them
among bytes that are no text.

## Main definitions

* `Utf8.Spells`: the bytes of a character, by their numbers

## Main results

* `Utf8.decodeChars_eq_ok_iff`: what is read is what was written
* `Utf8.mem_encodeChars_ascii`: an ASCII byte occurs in a text exactly where its character does
* `Utf8.decodeLossyFrom_encodeChars`, `Utf8.exists_of_decodeLossy_append`: what a lossy reader sees
  at the front
* `Utf8.decodeLossyFrom_append_ascii`: what a lossy reader sees at the end
-/

namespace InstallMedia.Utf8

/-! ## One character -/

/-- `lead?` by the numbers of bytes. -/
theorem lead?_eq (b : UInt8) :
    lead? b =
      if b.toNat < 0xC2 then none
      else if b.toNat < 0xE0 then some ⟨1, 0x80, 0xBF⟩
      else if b.toNat = 0xE0 then some ⟨2, 0xA0, 0xBF⟩
      else if b.toNat = 0xED then some ⟨2, 0x80, 0x9F⟩
      else if b.toNat < 0xF0 then some ⟨2, 0x80, 0xBF⟩
      else if b.toNat = 0xF0 then some ⟨3, 0x90, 0xBF⟩
      else if b.toNat < 0xF4 then some ⟨3, 0x80, 0xBF⟩
      else if b.toNat = 0xF4 then some ⟨3, 0x80, 0x8F⟩
      else none := by
  simp only [lead?, UInt8.lt_iff_toNat_lt, ← UInt8.toNat_inj]
  rfl

/-- Whether a byte can follow another one within a character. -/
def IsTail (b : UInt8) : Prop := 0x80 ≤ b.toNat ∧ b.toNat ≤ 0xBF

/-- What a leading byte and the bytes after it mean: the bytes of a character, by their numbers. -/
inductive Spells : Bytes → Nat → Prop where
  | one {a : UInt8} : a.toNat < 0x80 → Spells [a] a.toNat
  | two {a b : UInt8} : 0xC2 ≤ a.toNat → a.toNat < 0xE0 → IsTail b →
    Spells [a, b] ((a.toNat - 0xC0) * 64 + (b.toNat - 0x80))
  | three {a b c : UInt8} : 0xE0 ≤ a.toNat → a.toNat < 0xF0 →
    (a.toNat = 0xE0 → 0xA0 ≤ b.toNat) → (a.toNat = 0xED → b.toNat ≤ 0x9F) →
    IsTail b → IsTail c →
    Spells [a, b, c] (((a.toNat - 0xE0) * 64 + (b.toNat - 0x80)) * 64 + (c.toNat - 0x80))
  | four {a b c d : UInt8} : 0xF0 ≤ a.toNat → a.toNat ≤ 0xF4 →
    (a.toNat = 0xF0 → 0x90 ≤ b.toNat) → (a.toNat = 0xF4 → b.toNat ≤ 0x8F) →
    IsTail b → IsTail c → IsTail d →
    Spells [a, b, c, d]
      ((((a.toNat - 0xF0) * 64 + (b.toNat - 0x80)) * 64 + (c.toNat - 0x80)) * 64
        + (d.toNat - 0x80))

theorem continueFront_eq_char {value seen owed width : Nat} {low high : UInt8} {rest : Bytes}
    {c : Char} (h : continueFront value seen low high owed rest = .char c width) :
    ∃ b more, rest = b :: more ∧ low.toNat ≤ b.toNat ∧ b.toNat ≤ high.toNat ∧
      match owed with
      | 0 => Char.ofNat (value * 64 + (b.toNat - 0x80)) = c ∧ seen + 1 = width
      | owed + 1 =>
        continueFront (value * 64 + (b.toNat - 0x80)) (seen + 1) 0x80 0xBF owed more
          = .char c width := by
  cases rest with
  | nil => simp [continueFront] at h
  | cons b more =>
    simp only [continueFront] at h
    split at h
    · rename_i hb
      refine ⟨b, more, rfl, UInt8.le_iff_toNat_le.mp hb.1, UInt8.le_iff_toNat_le.mp hb.2, ?_⟩
      cases owed <;> simpa using h
    · simp at h

/-- What a leading byte announces. -/
theorem lead?_eq_some {a : UInt8} {l : Lead} (h : lead? a = some l) :
    0x80 ≤ l.low.toNat ∧ l.high.toNat ≤ 0xBF ∧
      (l.following = 1 ∧ 0xC2 ≤ a.toNat ∧ a.toNat < 0xE0 ∨
        l.following = 2 ∧ 0xE0 ≤ a.toNat ∧ a.toNat < 0xF0 ∧
          (a.toNat = 0xE0 → 0xA0 ≤ l.low.toNat) ∧ (a.toNat = 0xED → l.high.toNat ≤ 0x9F) ∨
        l.following = 3 ∧ 0xF0 ≤ a.toNat ∧ a.toNat ≤ 0xF4 ∧
          (a.toNat = 0xF0 → 0x90 ≤ l.low.toNat) ∧ (a.toNat = 0xF4 → l.high.toNat ≤ 0x8F)) := by
  rw [lead?_eq] at h
  -- Each row of the table satisfies one of the three.
  split_ifs at h <;> obtain rfl := Option.some.inj h <;> simp <;> omega

theorem spells_of_front {b : UInt8} {rest : Bytes} {c : Char} {width : Nat}
    (h : front b rest = .char c width) :
    ∃ bytes n more, Spells bytes n ∧ b :: rest = bytes ++ more ∧ c = Char.ofNat n ∧
      width = bytes.length := by
  unfold front at h
  split at h
  · rename_i hb
    obtain ⟨rfl, rfl⟩ := by simpa using h
    exact ⟨[b], b.toNat, rest, .one (UInt8.lt_iff_toNat_lt.mp hb), rfl, rfl, rfl⟩
  split at h
  · simp at h
  · rename_i following low high hl
    obtain ⟨hlow, hhigh, ha⟩ := lead?_eq_some hl
    -- The bounds are those of the second byte; all bytes after it are tails.
    dsimp only at hlow hhigh ha
    obtain ⟨x, r, rfl, hx, hx', h⟩ := continueFront_eq_char h
    have tail : IsTail x := ⟨by omega, by omega⟩
    rcases ha with ⟨rfl, h1, h2⟩ | ⟨rfl, h1, h2, h3, h4⟩ | ⟨rfl, h1, h2, h3, h4⟩
    · obtain ⟨rfl, rfl⟩ := h
      exact ⟨[b, x], _, r, .two h1 h2 tail, rfl, rfl, rfl⟩
    · obtain ⟨y, r, rfl, hy, hy', h⟩ := continueFront_eq_char h
      obtain ⟨rfl, rfl⟩ := h
      exact ⟨[b, x, y], _, r, .three h1 h2 (by omega) (by omega) tail ⟨hy, hy'⟩, rfl, rfl, rfl⟩
    · obtain ⟨y, r, rfl, hy, hy', h⟩ := continueFront_eq_char h
      obtain ⟨z, r, rfl, hz, hz', h⟩ := continueFront_eq_char h
      obtain ⟨rfl, rfl⟩ := h
      exact ⟨[b, x, y, z], _, r, .four h1 h2 (by omega) (by omega) tail ⟨hy, hy'⟩ ⟨hz, hz'⟩,
        rfl, rfl, rfl⟩

/-- One step of `continueFront` on a byte within the bounds. -/
theorem continueFront_cons {value seen owed : Nat} {low high b : UInt8} (rest : Bytes)
    (hlow : low.toNat ≤ b.toNat) (hhigh : b.toNat ≤ high.toNat) :
    continueFront value seen low high owed (b :: rest) =
      match owed with
      | 0 => .char (Char.ofNat (value * 64 + (b.toNat - 0x80))) (seen + 1)
      | owed + 1 =>
        continueFront (value * 64 + (b.toNat - 0x80)) (seen + 1) 0x80 0xBF owed rest := by
  have h : low ≤ b ∧ b ≤ high := ⟨UInt8.le_iff_toNat_le.mpr hlow, UInt8.le_iff_toNat_le.mpr hhigh⟩
  cases owed <;> simp only [continueFront, h, and_self, if_true]

theorem IsTail.continueFront {b : UInt8} (hb : IsTail b) (value seen owed : Nat) (rest : Bytes) :
    Utf8.continueFront value seen 0x80 0xBF owed (b :: rest) =
      match owed with
      | 0 => .char (Char.ofNat (value * 64 + (b.toNat - 0x80))) (seen + 1)
      | owed + 1 =>
        Utf8.continueFront (value * 64 + (b.toNat - 0x80)) (seen + 1) 0x80 0xBF owed rest :=
  continueFront_cons rest hb.1 hb.2

/-- A byte that can follow a leading byte is within the bounds that the leading byte sets. -/
theorem exists_lead? {a b : UInt8} (h1 : 0xC2 ≤ a.toNat) (h2 : a.toNat ≤ 0xF4)
    (h3 : a.toNat = 0xE0 → 0xA0 ≤ b.toNat) (h4 : a.toNat = 0xED → b.toNat ≤ 0x9F)
    (h5 : a.toNat = 0xF0 → 0x90 ≤ b.toNat) (h6 : a.toNat = 0xF4 → b.toNat ≤ 0x8F)
    (hb : IsTail b) :
    ∃ low high, low.toNat ≤ b.toNat ∧ b.toNat ≤ high.toNat ∧ lead? a =
      some ⟨if a.toNat < 0xE0 then 1 else if a.toNat < 0xF0 then 2 else 3, low, high⟩ := by
  obtain ⟨hb1, hb2⟩ := hb
  rw [lead?_eq]
  -- Only the rows of the table that the numbers allow are left.
  split_ifs <;> first
    | omega
    | exact ⟨_, _, by simp; omega, by simp; omega, rfl⟩

theorem not_lt_of_le_toNat {b : UInt8} (h : 0x80 ≤ b.toNat) : ¬ b < 0x80 := by
  rw [UInt8.lt_iff_toNat_lt]
  exact Nat.not_lt.mpr h

/-- Where a character is spelt, it is recognised. -/
theorem Spells.front {b : UInt8} {bytes : Bytes} {n : Nat} (h : Spells (b :: bytes) n)
    (more : Bytes) : Utf8.front b (bytes ++ more) = .char (Char.ofNat n) (bytes.length + 1) := by
  cases h with
  | one h =>
    have hb : b < 0x80 := UInt8.lt_iff_toNat_lt.mpr h
    simp only [Utf8.front, hb, if_true, List.length_nil]
  | two h1 h2 hx =>
    obtain ⟨low, high, hlow, hhigh, hl⟩ :=
      exists_lead? h1 (by omega) (by omega) (by omega) (by omega) (by omega) hx
    rw [if_pos h2] at hl
    simp only [Utf8.front, not_lt_of_le_toNat (show 0x80 ≤ b.toNat by omega), if_false, hl]
    simp [continueFront_cons _ hlow hhigh]
  | three h1 h2 h3 h4 hx hy =>
    obtain ⟨low, high, hlow, hhigh, hl⟩ :=
      exists_lead? (by omega) (by omega) h3 h4 (by omega) (by omega) hx
    rw [if_neg (by omega), if_pos h2] at hl
    simp only [Utf8.front, not_lt_of_le_toNat (show 0x80 ≤ b.toNat by omega), if_false, hl]
    simp [continueFront_cons _ hlow hhigh, hy.continueFront]
  | four h1 h2 h3 h4 hx hy hz =>
    obtain ⟨low, high, hlow, hhigh, hl⟩ :=
      exists_lead? (by omega) h2 (by omega) (by omega) h3 h4 hx
    rw [if_neg (by omega), if_neg (by omega)] at hl
    simp only [Utf8.front, not_lt_of_le_toNat (show 0x80 ≤ b.toNat by omega), if_false, hl]
    simp [continueFront_cons _ hlow hhigh, hy.continueFront, hz.continueFront]

theorem toNat_ofNat {n : Nat} (hn : n < 256) : (UInt8.ofNat n).toNat = n := by
  rw [UInt8.toNat_ofNat']
  omega

/-- A character is spelt by its bytes. -/
theorem spells_encodeChar (c : Char) : Spells (encodeChar c) c.toNat := by
  -- Without surrogates, `0xED` is never followed by a byte above `0x9F`.
  have hv : c.toNat < 0xD800 ∨ 0xDFFF < c.toNat ∧ c.toNat < 0x110000 := c.valid
  have tail (n : Nat) : IsTail (UInt8.ofNat (0x80 + n % 64)) := by
    rw [IsTail, toNat_ofNat (by omega)]
    omega
  unfold encodeChar
  dsimp only
  split_ifs with h1 h2 h3
  · have h := Spells.one (a := UInt8.ofNat c.toNat) (by rw [toNat_ofNat (by omega)]; exact h1)
    rwa [toNat_ofNat (by omega)] at h
  · have h := Spells.two (a := UInt8.ofNat (0xC0 + c.toNat / 64))
      (by rw [toNat_ofNat (by omega)]; omega) (by rw [toNat_ofNat (by omega)]; omega)
      (tail c.toNat)
    rw [toNat_ofNat (by omega), toNat_ofNat (by omega)] at h
    convert h using 1
    omega
  · have h := Spells.three (a := UInt8.ofNat (0xE0 + c.toNat / 4096))
      (b := UInt8.ofNat (0x80 + c.toNat / 64 % 64))
      (by rw [toNat_ofNat (by omega)]; omega) (by rw [toNat_ofNat (by omega)]; omega)
      (by rw [toNat_ofNat (by omega), toNat_ofNat (by omega)]; omega)
      (by rw [toNat_ofNat (by omega), toNat_ofNat (by omega)]; omega)
      (tail (c.toNat / 64)) (tail c.toNat)
    rw [toNat_ofNat (by omega), toNat_ofNat (by omega), toNat_ofNat (by omega)] at h
    convert h using 1
    omega
  · have h := Spells.four (a := UInt8.ofNat (0xF0 + c.toNat / 262144))
      (b := UInt8.ofNat (0x80 + c.toNat / 4096 % 64))
      (by rw [toNat_ofNat (by omega)]; omega) (by rw [toNat_ofNat (by omega)]; omega)
      (by rw [toNat_ofNat (by omega), toNat_ofNat (by omega)]; omega)
      (by rw [toNat_ofNat (by omega), toNat_ofNat (by omega)]; omega)
      (tail (c.toNat / 4096)) (tail (c.toNat / 64)) (tail c.toNat)
    rw [toNat_ofNat (by omega), toNat_ofNat (by omega), toNat_ofNat (by omega),
      toNat_ofNat (by omega)] at h
    convert h using 1
    omega

theorem Spells.isValidChar {bytes : Bytes} {n : Nat} (h : Spells bytes n) : n.isValidChar := by
  unfold Nat.isValidChar
  cases h with
  | one h => omega
  | two h1 h2 hx => obtain ⟨_, _⟩ := hx; omega
  | three h1 h2 h3 h4 hx hy => obtain ⟨_, _⟩ := hx; obtain ⟨_, _⟩ := hy; omega
  | four h1 h2 h3 h4 hx hy hz =>
    obtain ⟨_, _⟩ := hx; obtain ⟨_, _⟩ := hy; obtain ⟨_, _⟩ := hz; omega

theorem toNat_ofNat_char {n : Nat} (h : n.isValidChar) : (Char.ofNat n).toNat = n := by
  rw [Char.ofNat, dif_pos h]
  rfl

/-- No character is spelt in two ways. -/
theorem Spells.eq_encodeChar {bytes : Bytes} {n : Nat} (h : Spells bytes n) :
    bytes = encodeChar (Char.ofNat n) := by
  rw [encodeChar, toNat_ofNat_char h.isValidChar]
  -- The number determines how many bytes there are, and then each of them.
  have eq_ofNat {a : UInt8} {k : Nat} (hk : a.toNat = k) : a = UInt8.ofNat k := by
    rw [← hk, UInt8.ofNat_toNat]
  cases h with
  | one h => simp (disch := omega) only [if_pos, UInt8.ofNat_toNat]
  | two h1 h2 hx =>
    obtain ⟨_, _⟩ := hx
    simp (disch := omega) only [if_pos, if_neg]
    rw [List.cons.injEq, List.cons.injEq]
    exact ⟨eq_ofNat (by omega), eq_ofNat (by omega), rfl⟩
  | three h1 h2 h3 h4 hx hy =>
    obtain ⟨_, _⟩ := hx; obtain ⟨_, _⟩ := hy
    simp (disch := omega) only [if_pos, if_neg]
    rw [List.cons.injEq, List.cons.injEq, List.cons.injEq]
    exact ⟨eq_ofNat (by omega), eq_ofNat (by omega), eq_ofNat (by omega), rfl⟩
  | four h1 h2 h3 h4 hx hy hz =>
    obtain ⟨_, _⟩ := hx; obtain ⟨_, _⟩ := hy; obtain ⟨_, _⟩ := hz
    simp (disch := omega) only [if_neg]
    rw [List.cons.injEq, List.cons.injEq, List.cons.injEq, List.cons.injEq]
    exact ⟨eq_ofNat (by omega), eq_ofNat (by omega), eq_ofNat (by omega), eq_ofNat (by omega), rfl⟩

/-! ## Reading what was written -/

theorem exists_encodeChar_eq_cons (c : Char) : ∃ b bytes, encodeChar c = b :: bytes := by
  have h := spells_encodeChar c
  generalize c.toNat = n at h
  generalize encodeChar c = bytes at h
  cases h <;> exact ⟨_, _, rfl⟩

/-- Each character takes up a byte at least. -/
theorem length_le_encodeChars (cs : List Char) : cs.length ≤ (encodeChars cs).length := by
  induction cs with
  | nil => exact Nat.le_refl 0
  | cons c cs ih =>
    obtain ⟨b, bytes, hb⟩ := exists_encodeChar_eq_cons c
    rw [encodeChars, List.flatMap_cons, ← encodeChars, hb, List.length_append, List.length_cons,
      List.length_cons]
    omega

/-- Where the bytes of a character stand, it is recognised. -/
theorem front_of_encodeChar {c : Char} {b : UInt8} {bytes : Bytes} (h : encodeChar c = b :: bytes)
    (more : Bytes) : front b (bytes ++ more) = .char c (bytes.length + 1) := by
  have hs := spells_encodeChar c
  rw [h] at hs
  rw [hs.front more, Char.ofNat_toNat]

/-- A character is recognised only where its bytes stand. -/
theorem eq_append_of_front {b : UInt8} {rest : Bytes} {c : Char} {width : Nat}
    (h : front b rest = .char c width) :
    ∃ more, b :: rest = encodeChar c ++ more ∧ width = (encodeChar c).length := by
  obtain ⟨bytes, n, more, hs, hb, rfl, rfl⟩ := spells_of_front h
  exact ⟨more, by rw [hb, ← hs.eq_encodeChar], by rw [← hs.eq_encodeChar]⟩

theorem decodeFrom_skip (index : Nat) (passed rest : Bytes) :
    decodeFrom index passed.length (passed ++ rest) =
      decodeFrom (index + passed.length) 0 rest := by
  induction passed generalizing index with
  | nil => rfl
  | cons b passed ih =>
    rw [List.length_cons, List.cons_append, decodeFrom, ih]
    congr 1
    omega

theorem decodeFrom_encodeChar (index : Nat) (c : Char) (rest : Bytes) :
    decodeFrom index 0 (encodeChar c ++ rest) =
      (decodeFrom (index + (encodeChar c).length) 0 rest).map (c :: ·) := by
  obtain ⟨b, bytes, h⟩ := exists_encodeChar_eq_cons c
  simp only [h, List.cons_append, decodeFrom, front_of_encodeChar h, Nat.add_sub_cancel,
    List.length_cons]
  rw [decodeFrom_skip]
  congr 2
  omega

theorem decodeFrom_encodeChars (index : Nat) (cs : List Char) :
    decodeFrom index 0 (encodeChars cs) = .ok cs := by
  induction cs generalizing index with
  | nil => rfl
  | cons c cs ih =>
    rw [encodeChars, List.flatMap_cons, decodeFrom_encodeChar, ← encodeChars, ih]
    rfl

theorem eq_encodeChars_of_decodeFrom {index : Nat} {bytes : Bytes} {cs : List Char}
    (h : decodeFrom index 0 bytes = .ok cs) : bytes = encodeChars cs := by
  -- A character may take several bytes, so the induction is on the number of bytes.
  induction hn : bytes.length using Nat.strongRecOn generalizing index bytes cs with
  | _ n ih =>
    cases bytes with
    | nil =>
      obtain rfl : [] = cs := by simpa [decodeFrom] using h
      rfl
    | cons b rest =>
      cases hf : front b rest with
      | char c width =>
        obtain ⟨more, hb, -⟩ := eq_append_of_front hf
        rw [hb, decodeFrom_encodeChar] at h
        cases ht : decodeFrom (index + (encodeChar c).length) 0 more with
        | error fault => simp [ht, Except.map] at h
        | ok tail =>
          obtain rfl : c :: tail = cs := by simpa [ht, Except.map] using h
          obtain ⟨x, xs, hx⟩ := exists_encodeChar_eq_cons c
          have shorter : more.length < n := by
            rw [← hn, hb, hx]
            simp only [List.length_append, List.length_cons]
            omega
          rw [hb, ih _ shorter ht rfl]
          rfl
      | invalid length => simp [decodeFrom, hf] at h
      | incomplete => simp [decodeFrom, hf] at h

/-- The bytes that are text are those that were written. -/
theorem decodeChars_eq_ok_iff {bytes : Bytes} {cs : List Char} :
    decodeChars bytes = .ok cs ↔ bytes = encodeChars cs := by
  constructor
  · exact eq_encodeChars_of_decodeFrom
  · rintro rfl
    exact decodeFrom_encodeChars 0 cs

/-- No two texts are written alike. -/
theorem encodeChars_injective : Function.Injective encodeChars := by
  intro cs ds h
  have read : decodeChars (encodeChars ds) = .ok cs := decodeChars_eq_ok_iff.mpr h.symm
  rw [decodeChars_eq_ok_iff.mpr rfl] at read
  exact (Except.ok.inj read).symm

/-! ## Bytes that stand for themselves -/

theorem encodeChar_ascii {c : Char} (hc : c.toNat < 0x80) :
    encodeChar c = [UInt8.ofNat c.toNat] := by
  simp only [encodeChar, hc, if_true]

/-- A character below `0x80` is one byte between what is around it. -/
theorem encodeChars_append_cons (front back : List Char) {c : Char} (hc : c.toNat < 0x80) :
    encodeChars (front ++ c :: back) =
      encodeChars front ++ UInt8.ofNat c.toNat :: encodeChars back := by
  simp only [encodeChars, List.flatMap_append, List.flatMap_cons, encodeChar_ascii hc]
  rfl

/-- A character is one byte below `0x80`, or has none. -/
theorem Spells.ascii_or {bytes : Bytes} {n : Nat} (h : Spells bytes n) :
    (∃ a : UInt8, bytes = [a] ∧ a.toNat = n) ∨ ∀ b ∈ bytes, 0x80 ≤ b.toNat := by
  cases h with
  | one h => exact Or.inl ⟨_, rfl, rfl⟩
  | two h1 h2 hx => exact Or.inr (by simpa using ⟨by omega, hx.1⟩)
  | three h1 h2 h3 h4 hx hy => exact Or.inr (by simpa using ⟨by omega, hx.1, hy.1⟩)
  | four h1 h2 h3 h4 hx hy hz => exact Or.inr (by simpa using ⟨by omega, hx.1, hy.1, hz.1⟩)

/-- A byte below `0x80` occurs in the bytes of no other character. -/
theorem eq_of_mem_encodeChar {c : Char} {b : UInt8} (h : b ∈ encodeChar c) (hb : b.toNat < 0x80) :
    c = Char.ofNat b.toNat := by
  rcases (spells_encodeChar c).ascii_or with ⟨a, ha, hn⟩ | high
  · rw [ha, List.mem_singleton] at h
    rw [h, hn, Char.ofNat_toNat]
  · exact absurd (high b h) (by omega)

theorem mem_encodeChars_ascii {cs : List Char} {b : UInt8} (hb : b.toNat < 0x80) :
    b ∈ encodeChars cs ↔ Char.ofNat b.toNat ∈ cs := by
  rw [encodeChars, List.mem_flatMap]
  constructor
  · rintro ⟨c, hc, h⟩
    rwa [← eq_of_mem_encodeChar h hb]
  · intro h
    refine ⟨_, h, ?_⟩
    have hv : b.toNat.isValidChar := Or.inl (by omega)
    rw [encodeChar_ascii (by rw [toNat_ofNat_char hv]; exact hb), toNat_ofNat_char hv,
      UInt8.ofNat_toNat]
    exact List.mem_singleton_self b

/-! ## Reading any bytes -/

theorem decodeLossyFrom_ascii {b : UInt8} (hb : b.toNat < 0x80) (rest : Bytes) :
    decodeLossyFrom 0 (b :: rest) = Char.ofNat b.toNat :: decodeLossyFrom 0 rest := by
  have h := (Spells.one hb).front rest
  rw [List.nil_append] at h
  simp only [decodeLossyFrom, h, List.length_nil]

/-- An ASCII character that a lossy reader sees first is a byte. -/
theorem exists_of_decodeLossy_cons {bytes : Bytes} {c : Char} {cs : List Char}
    (h : decodeLossyFrom 0 bytes = c :: cs) (hc : c.toNat < 0x80) :
    ∃ rest, bytes = UInt8.ofNat c.toNat :: rest ∧ decodeLossyFrom 0 rest = cs := by
  cases bytes with
  | nil => simp [decodeLossyFrom] at h
  | cons b rest =>
    -- What stands for bytes that are no text is not ASCII.
    have replaced : replacement ≠ c := by
      rintro rfl
      exact absurd hc (by decide)
    cases hf : front b rest with
    | char d width =>
      simp only [decodeLossyFrom, hf, List.cons.injEq] at h
      obtain ⟨rfl, h⟩ := h
      obtain ⟨more, hb, rfl⟩ := eq_append_of_front hf
      rw [encodeChar_ascii hc] at hb h
      obtain ⟨rfl, rfl⟩ := List.cons.inj hb
      exact ⟨rest, rfl, h⟩
    | invalid length => simp [decodeLossyFrom, hf, replaced] at h
    | incomplete => simp [decodeLossyFrom, hf, replaced] at h

/-- What a byte after them makes of bytes at the front. -/
def Front.followed (n : Nat) : Front → Front
  | .char c width => .char c width
  | .invalid length => .invalid length
  | .incomplete => .invalid n

theorem continueFront_append {x : UInt8} (hx : x.toNat < 0x80) {value seen owed : Nat}
    {low high : UInt8} (hlow : 0x80 ≤ low.toNat) (rest : Bytes) :
    continueFront value seen low high owed (rest ++ [x]) =
      (continueFront value seen low high owed rest).followed (seen + rest.length) := by
  induction rest generalizing value seen owed low high with
  | nil =>
    -- An ASCII byte is no tail, whatever the bounds are.
    have h : ¬ (low ≤ x ∧ x ≤ high) := by
      rintro ⟨h, -⟩
      have := UInt8.le_iff_toNat_le.mp h
      omega
    simp [continueFront, Front.followed, h]
  | cons b rest ih =>
    simp only [List.cons_append, continueFront]
    split
    · cases owed with
      | zero => rfl
      | succ owed =>
        dsimp only
        rw [ih (by decide), List.length_cons]
        congr 1
        omega
    · rfl

theorem front_append {x : UInt8} (hx : x.toNat < 0x80) (b : UInt8) (rest : Bytes) :
    front b (rest ++ [x]) = (front b rest).followed (rest.length + 1) := by
  unfold front
  split
  · rfl
  · split
    · rfl
    · rename_i hl
      rw [continueFront_append hx (lead?_eq_some hl).1]
      congr 1
      omega

theorem length_le_of_continueFront {value seen owed length : Nat} {low high : UInt8} {rest : Bytes}
    (h : continueFront value seen low high owed rest = .invalid length) :
    length < seen + rest.length := by
  induction rest generalizing value seen owed low high with
  | nil => simp [continueFront] at h
  | cons b rest ih =>
    simp only [continueFront] at h
    rw [List.length_cons]
    split at h
    · cases owed with
      | zero => simp at h
      | succ owed =>
        have := ih h
        omega
    · obtain rfl : seen = length := by simpa using h
      omega

theorem length_le_of_front {b : UInt8} {rest : Bytes} {length : Nat}
    (h : front b rest = .invalid length) : length - 1 ≤ rest.length := by
  unfold front at h
  split at h
  · simp at h
  · split at h
    · obtain rfl : 1 = length := by simpa using h
      omega
    · have := length_le_of_continueFront h
      omega

theorem decodeLossyFrom_skip (passed rest : Bytes) :
    decodeLossyFrom passed.length (passed ++ rest) = decodeLossyFrom 0 rest := by
  induction passed with
  | nil => rfl
  | cons b passed ih => rw [List.length_cons, List.cons_append, decodeLossyFrom, ih]

/-- A lossy reader sees a last ASCII byte as itself. -/
theorem decodeLossyFrom_append_ascii {x : UInt8} (hx : x.toNat < 0x80) {skip : Nat} {bytes : Bytes}
    (h : skip ≤ bytes.length) :
    decodeLossyFrom skip (bytes ++ [x]) = decodeLossyFrom skip bytes ++ [Char.ofNat x.toNat] := by
  induction bytes generalizing skip with
  | nil =>
    obtain rfl : skip = 0 := by simpa using h
    rw [List.nil_append, decodeLossyFrom_ascii hx]
    rfl
  | cons b rest ih =>
    cases skip with
    | succ skip => simpa [decodeLossyFrom] using ih (by simpa using h)
    | zero =>
      simp only [List.cons_append, decodeLossyFrom, front_append hx]
      cases hf : front b rest with
      | char c width =>
        obtain ⟨more, hb, rfl⟩ := eq_append_of_front hf
        have hw : (encodeChar c).length - 1 ≤ rest.length := by
          have := congrArg List.length hb
          simp at this
          omega
        simp only [Front.followed, ih hw, List.cons_append]
      | invalid length =>
        simp only [Front.followed, ih (length_le_of_front hf), List.cons_append]
      | incomplete =>
        -- All the bytes were the beginning of a character, and are replaced together.
        simp only [Front.followed, Nat.add_sub_cancel, decodeLossyFrom_skip,
          decodeLossyFrom_ascii hx]
        rfl

/-- A lossy reader who sees nothing has read nothing. -/
theorem eq_nil_of_decodeLossyFrom {bytes : Bytes} (h : decodeLossyFrom 0 bytes = []) :
    bytes = [] := by
  cases bytes with
  | nil => rfl
  | cons b rest =>
    rw [decodeLossyFrom] at h
    split at h <;> simp at h

/-- A lossy reader sees characters as they were written. -/
theorem decodeLossyFrom_encodeChars (cs : List Char) (rest : Bytes) :
    decodeLossyFrom 0 (encodeChars cs ++ rest) = cs ++ decodeLossyFrom 0 rest := by
  induction cs with
  | nil => rfl
  | cons c cs ih =>
    obtain ⟨b, bytes, hb⟩ := exists_encodeChar_eq_cons c
    rw [encodeChars, List.flatMap_cons, List.append_assoc, hb, List.cons_append, decodeLossyFrom,
      front_of_encodeChar hb]
    simp only [Nat.add_sub_cancel, decodeLossyFrom_skip, List.cons_append]
    rw [← ih, encodeChars]

/-- ASCII characters at the front of what a lossy reader sees were written there. -/
theorem exists_of_decodeLossy_append {cs : List Char} (hcs : ∀ c ∈ cs, c.toNat < 0x80)
    {bytes : Bytes} {more : List Char} (h : decodeLossyFrom 0 bytes = cs ++ more) :
    ∃ rest, bytes = encodeChars cs ++ rest ∧ decodeLossyFrom 0 rest = more := by
  induction cs generalizing bytes with
  | nil => exact ⟨bytes, rfl, h⟩
  | cons c cs ih =>
    have hc := hcs c (by simp)
    obtain ⟨rest, rfl, hrest⟩ := exists_of_decodeLossy_cons h hc
    obtain ⟨rest, rfl, hmore⟩ := ih (fun d hd => hcs d (by simp [hd])) hrest
    exact ⟨rest, by simp [encodeChars, encodeChar_ascii hc], hmore⟩

end InstallMedia.Utf8
