import InstallMedia.Proofs.Attempt
import InstallMedia.Proofs.Text.Split
import InstallMedia.Proofs.Url.Path
import InstallMedia.Proofs.Url.Scheme
import InstallMedia.Url.Reader

/-!
# Paths of addresses that are read

An address that has a host, and is not the address of a file, has a path of segments, and none of
them is a direction: whatever way its text points is followed when the text is read.

## Main definitions

* `Url.Path.IsResolved`: a path of segments without directions

## Main results

* `Url.isResolved_of_parse`: the path of an address with a host is resolved
-/

namespace InstallMedia.Url

/-- A path of segments without directions. -/
def Path.IsResolved (path : Path) : Prop :=
  ∃ list, path = .segments list ∧ ∀ segment ∈ list, IsPlace segment.toList

namespace Path

theorem isResolved_ofChars {segments : List (List Char)} (h : ∀ s ∈ segments, IsPlace s) :
    (ofChars segments).IsResolved := by
  refine ⟨_, rfl, fun segment hm => ?_⟩
  obtain ⟨chars, hc, rfl⟩ := List.mem_map.mp hm
  rw [String.toList_ofList]
  exact h chars hc

/-- What is read after the first slash of a path is resolved. -/
theorem isPlace_readFrom (special : Bool) (cs : List Char) :
    ∀ s ∈ readFrom special [] cs, IsPlace s := by
  refine isPlace_resolveFrom (by simp) fun s hs => ?_
  obtain ⟨field, hf, rfl⟩ := List.mem_map.mp hs
  refine slash_notMem_encodeChars (Or.inr fun slash => ?_)
  have := (Split.of_mem_fields hf slash).2
  simp [isSeparator] at this

end Path

variable {scheme : String} {authority : Option Authority} {cs : List Char} {url : Url}

theorem isResolved_withPath (scheme : String) (authority : Option Authority) (cs : List Char) :
    (withPath scheme authority cs).path.IsResolved := by
  apply Path.isResolved_ofChars
  split
  · split
    · simpa using Path.isPlace_nil
    · simp
  · exact Path.isPlace_readFrom _ _

/-- Under a scheme that is not `file`, the path is resolved unless it is opaque, and then there is
no host. -/
theorem isResolved_of_readOther [InternationalNames] (h : readOther scheme cs = .ok url)
    (host : url.host?.isSome = true) : url.path.IsResolved := by
  unfold readOther at h
  split at h
  · obtain ⟨⟨authority, rest⟩, -, h⟩ := bind_eq_ok_iff.mp h
    obtain rfl := Except.ok.inj h
    exact isResolved_withPath _ _ _
  · split at h
    · obtain ⟨⟨authority, rest⟩, -, h⟩ := bind_eq_ok_iff.mp h
      obtain rfl := Except.ok.inj h
      exact isResolved_withPath _ _ _
    · obtain rfl := Except.ok.inj h
      exact isResolved_withPath _ _ _
    · obtain rfl := Except.ok.inj h
      exact absurd host (by simp [assemble, host?])

/-- The path of an address with a host is resolved, unless the address is one of a file. -/
theorem isResolved_of_parse [InternationalNames] {text : String} (h : parse text = .ok url)
    (host : url.host?.isSome = true) (notFile : url.scheme ≠ "file") : url.path.IsResolved := by
  unfold parse at h
  split at h
  · simp at h
  · unfold readAfterScheme at h
    split at h
    · exact absurd (scheme_of_readFile h) notFile
    · exact isResolved_of_readOther h host

end InstallMedia.Url
