import InstallMedia.Proofs.Text.Utf8
import InstallMedia.Text.Percent

/-!
# Percent-encoding: the laws

What is written under a set that has the percent sign means the characters it was written from, so
no two texts are written alike.  Writing puts no character down but percent signs, digits, and
characters outside the set.

## Main results

* `Percent.decodeBytes_encodeChars`: the bytes meant are those of the characters written
* `Percent.eq_of_decodeBytes_encodeChars`: what means the bytes of a text was written from it
* `Percent.mem_encodeChars`: the characters that are put down
-/

namespace InstallMedia.Percent

/-! ## Digits -/

theorem hexValue?_hexDigit {n : Nat} (h : n < 16) : hexValue? (hexDigit n) = some n := by
  have all : ∀ i : Fin 16, hexValue? (hexDigit i) = some i.val := by decide
  exact all ⟨n, h⟩

theorem isAlphanum_hexDigit {n : Nat} (h : n < 16) : (hexDigit n).isAlphanum = true := by
  have all : ∀ i : Fin 16, (hexDigit i).isAlphanum = true := by decide
  exact all ⟨n, h⟩

/-- The two digits of a byte mean it. -/
theorem byte?_hexDigit (b : UInt8) :
    byte? (hexDigit (b.toNat / 16)) (hexDigit (b.toNat % 16)) = some b := by
  have high : b.toNat / 16 < 16 := by have := b.toNat_lt; omega
  have low : b.toNat % 16 < 16 := Nat.mod_lt _ (by decide)
  have whole : b.toNat / 16 * 16 + b.toNat % 16 = b.toNat := Nat.div_add_mod' _ _
  rw [byte?, hexValue?_hexDigit high, hexValue?_hexDigit low]
  change some (UInt8.ofNat (b.toNat / 16 * 16 + b.toNat % 16)) = some b
  rw [whole, UInt8.ofNat_toNat]

/-! ## Reading what was written -/

theorem decodeBytes_encodeByte (b : UInt8) (rest : List Char) :
    decodeBytes (encodeByte b ++ rest) = b :: decodeBytes rest := by
  simp only [encodeByte, List.cons_append, List.nil_append, decodeBytes, byte?_hexDigit]

theorem decodeBytes_flatMap_encodeByte (bytes : Bytes) (rest : List Char) :
    decodeBytes (bytes.flatMap encodeByte ++ rest) = bytes ++ decodeBytes rest := by
  induction bytes with
  | nil => rfl
  | cons b bytes ih =>
    rw [List.flatMap_cons, List.append_assoc, decodeBytes_encodeByte, ih, List.cons_append]

/-- A character that is no percent sign means itself. -/
theorem decodeBytes_cons {c : Char} (h : c ≠ '%') (rest : List Char) :
    decodeBytes (c :: rest) = Utf8.encodeChar c ++ decodeBytes rest := by
  rw [decodeBytes]
  rintro _ _ _ rfl
  exact absurd rfl h

/-- Under a set that has the percent sign, what is written means what it was written from. -/
theorem decodeBytes_encodeChars {set : Set} (h : set '%' = true) (cs : List Char) :
    decodeBytes (encodeChars set cs) = Utf8.encodeChars cs := by
  induction cs with
  | nil => rfl
  | cons c cs ih =>
    have split : encodeChars set (c :: cs) = encodeChar set c ++ encodeChars set cs :=
      List.flatMap_cons
    rw [split, encodeChar, Utf8.encodeChars, List.flatMap_cons]
    by_cases hc : set c = true
    · rw [if_pos hc, decodeBytes_flatMap_encodeByte, ih]
      rfl
    · have plain : c ≠ '%' := fun he => hc (he ▸ h)
      rw [if_neg hc, List.singleton_append, decodeBytes_cons plain, ih]
      rfl

/-- A text is what all that means its bytes was written from. -/
theorem eq_of_decodeBytes_encodeChars {set : Set} (h : set '%' = true) {cs text : List Char}
    (hb : decodeBytes (encodeChars set cs) = Utf8.encodeChars text) : cs = text :=
  Utf8.encodeChars_injective ((decodeBytes_encodeChars h cs).symm.trans hb)

/-! ## What is put down -/

theorem mem_encodeByte {x : Char} {b : UInt8} (h : x ∈ encodeByte b) :
    x = '%' ∨ x.isAlphanum = true := by
  have high : b.toNat / 16 < 16 := by have := b.toNat_lt; omega
  have low : b.toNat % 16 < 16 := Nat.mod_lt _ (by decide)
  simp only [encodeByte, List.mem_cons, List.not_mem_nil, or_false] at h
  rcases h with rfl | rfl | rfl
  · exact Or.inl rfl
  · exact Or.inr (isAlphanum_hexDigit high)
  · exact Or.inr (isAlphanum_hexDigit low)

/-- What is put down is a percent sign, a letter or digit, or was there and is not in the set. -/
theorem mem_encodeChars {set : Set} {x : Char} {cs : List Char} (h : x ∈ encodeChars set cs) :
    (x = '%' ∨ x.isAlphanum = true) ∨ x ∈ cs ∧ set x = false := by
  obtain ⟨c, hc, hx⟩ := List.mem_flatMap.mp h
  rw [encodeChar] at hx
  split at hx
  · obtain ⟨b, -, hx⟩ := List.mem_flatMap.mp hx
    exact Or.inl (mem_encodeByte hx)
  · rename_i out
    obtain rfl := List.mem_singleton.mp hx
    exact Or.inr ⟨hc, by simpa using out⟩

/-- Characters outside the set are written as they are. -/
theorem encodeChars_of_notMem {set : Set} {cs : List Char} (h : ∀ c ∈ cs, set c = false) :
    encodeChars set cs = cs := by
  induction cs with
  | nil => rfl
  | cons c cs ih =>
    have first : encodeChar set c = [c] := by simp [encodeChar, h c]
    have rest := ih fun c hc => h c (List.mem_cons_of_mem _ hc)
    rw [encodeChars] at rest ⊢
    rw [List.flatMap_cons, first, rest, List.singleton_append]

end InstallMedia.Percent
