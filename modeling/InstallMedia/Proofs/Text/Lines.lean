import InstallMedia.Proofs.Text.Split
import InstallMedia.Proofs.Text.Utf8
import InstallMedia.Text.Lines
import Mathlib.Data.List.TakeWhile

/-!
# Lines and their ends

A line feed ends a line, and nothing else does: bytes are cut into the lines they were put together
from exactly when no line has a line feed inside.

## Main results

* `Lines.split_flatMap`, `Lines.split_flatMap_iff`: cutting what was put together
* `Lines.decodeChars_of_mem_split`: the lines of a text are texts
-/

namespace InstallMedia

namespace Lines

/-! ## Cutting -/

theorem split_append {line : Bytes} (h : feed ∉ line) (rest : Bytes) :
    split (line ++ feed :: rest) = (line ++ [feed]) :: split rest := by
  induction line with
  | nil => simp [split]
  | cons b line ih =>
    obtain ⟨hb, h⟩ : feed ≠ b ∧ feed ∉ line := by simpa using h
    rw [List.cons_append, split, if_neg (Ne.symm hb), ih h]
    rfl

theorem split_of_notMem {line : Bytes} (h : feed ∉ line) (hne : line ≠ []) :
    split line = [line] := by
  induction line with
  | nil => exact absurd rfl hne
  | cons b line ih =>
    obtain ⟨hb, h⟩ : feed ≠ b ∧ feed ∉ line := by simpa using h
    rw [split, if_neg (Ne.symm hb)]
    cases line with
    | nil => rfl
    | cons c line => rw [ih h (by simp)]

/-- A line feed stands only at the end of a line. -/
theorem notMem_of_mem_split {line bytes : Bytes} {b : UInt8} (h : line ++ [b] ∈ split bytes) :
    feed ∉ line := by
  induction bytes generalizing line with
  | nil => simp [split] at h
  | cons a rest ih =>
    rw [split] at h
    split at h
    · rcases List.mem_cons.mp h with h | h
      · rw [List.append_eq_singleton_iff] at h
        simp_all
      · exact ih h
    · rename_i ha
      -- A byte that is no line feed goes before the first line of the rest, if there is one.
      cases hs : split rest with
      | nil =>
        obtain ⟨rfl, -⟩ | ⟨-, h⟩ : line = [] ∧ [b] = [a] ∨ line = [a] ∧ [b] = [] := by
          simpa [hs, List.append_eq_singleton_iff] using h
        · simp
        · simp at h
      | cons first more =>
        rw [hs] at h ih
        rcases List.mem_cons.mp h with h | h
        · cases line with
          | nil => simp
          | cons c line =>
            obtain ⟨rfl, rfl⟩ : c = a ∧ line ++ [b] = first := by simpa using h
            simpa [Ne.symm ha] using @ih line (by simp)
        · exact ih (by simp [h])

/-- Lines that were put together are cut apart again exactly when none has a line feed inside. -/
theorem split_flatMap_iff {α : Type} (line : α → Bytes) (xs : List α) :
    split (xs.flatMap fun x => line x ++ [feed]) = xs.map (fun x => line x ++ [feed]) ↔
      ∀ x ∈ xs, feed ∉ line x := by
  constructor
  · intro h x hx
    have hm : line x ++ [feed] ∈ split (xs.flatMap fun x => line x ++ [feed]) := by
      rw [h]
      exact List.mem_map_of_mem hx
    exact notMem_of_mem_split hm
  · intro h
    induction xs with
    | nil => rfl
    | cons x xs ih =>
      rw [List.flatMap_cons, List.append_assoc, List.singleton_append, split_append (h x (by simp)),
        ih fun y hy => h y (by simp [hy])]
      rfl

theorem split_ne_nil {bytes : Bytes} (h : bytes ≠ []) : split bytes ≠ [] := by
  intro none
  have kept := flatten_split bytes
  rw [none, List.flatten_nil] at kept
  exact h kept.symm

/-- The first line begins as the bytes do. -/
theorem split_cons (b : UInt8) (rest : Bytes) :
    ∃ line more, split (b :: rest) = (b :: line) :: more := by
  rw [split]
  split
  · exact ⟨[], split rest, rfl⟩
  · split
    · exact ⟨[], [], rfl⟩
    · exact ⟨_, _, rfl⟩

/-- What comes after a line feed is cut by itself. -/
theorem split_append_feed (bytes rest : Bytes) :
    split (bytes ++ [feed] ++ rest) = split (bytes ++ [feed]) ++ split rest := by
  induction bytes with
  | nil => simp [split]
  | cons b bytes ih =>
    rw [List.cons_append, List.cons_append, split, split, ih]
    by_cases hb : b = feed
    · rw [if_pos hb, if_pos hb, List.cons_append]
    · rw [if_neg hb, if_neg hb]
      cases first : split (bytes ++ [feed]) with
      | nil => exact absurd first (split_ne_nil (by simp))
      | cons line more => rfl

/-- Lines that were put together are cut apart again, and each is cut where it has a line feed
inside. -/
theorem split_flatMap {α : Type} (line : α → Bytes) (xs : List α) :
    split (xs.flatMap fun x => line x ++ [feed]) =
      xs.flatMap fun x => split (line x ++ [feed]) := by
  induction xs with
  | nil => rfl
  | cons x xs ih => rw [List.flatMap_cons, split_append_feed, ih, List.flatMap_cons]

/-! ## Lines of texts -/

theorem feed_notMem_encodeChars {cs : List Char} (h : '\n' ∉ cs) :
    feed ∉ Utf8.encodeChars cs := by
  rw [Utf8.mem_encodeChars_ascii (by decide)]
  exact h

theorem feed_notMem_encode {s : String} : feed ∉ Utf8.encode s ↔ '\n' ∉ s.toList := by
  rw [Utf8.encode, Utf8.mem_encodeChars_ascii (by decide)]
  rfl

/-- The lines of a text are texts. -/
theorem decodeChars_of_mem_split {cs : List Char} {raw : Bytes}
    (h : raw ∈ split (Utf8.encodeChars cs)) : ∃ line, Utf8.decodeChars raw = .ok line := by
  -- The induction is on the text, line by line.
  induction hn : cs.length using Nat.strongRecOn generalizing cs with
  | ind n ih =>
    by_cases hc : '\n' ∈ cs
    · obtain ⟨line, more, rfl, hl⟩ := List.eq_append_cons_of_mem hc
      have cut : Utf8.encodeChars (line ++ '\n' :: more) =
          Utf8.encodeChars line ++ feed :: Utf8.encodeChars more := by
        simp [Utf8.encodeChars, Utf8.encodeChar, feed]
      rw [cut, split_append (feed_notMem_encodeChars hl)] at h
      rcases List.mem_cons.mp h with rfl | h
      · refine ⟨line ++ ['\n'], Utf8.decodeChars_eq_ok_iff.mpr ?_⟩
        simp [Utf8.encodeChars, Utf8.encodeChar, feed]
      · exact ih more.length (by simp [← hn]; omega) h rfl
    -- What comes after the last line feed is a line, unless it is nothing.
    · by_cases he : Utf8.encodeChars cs = []
      · simp [he, split] at h
      · rw [split_of_notMem (feed_notMem_encodeChars hc) he, List.mem_singleton] at h
        exact ⟨cs, Utf8.decodeChars_eq_ok_iff.mpr h⟩

end Lines

end InstallMedia
