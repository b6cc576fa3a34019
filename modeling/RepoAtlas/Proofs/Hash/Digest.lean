import Mathlib.Algebra.Group.Nat.Defs
import RepoAtlas.Hash.Sha256

/-!
The shape of a digest: so many hexadecimal digits, whatever was digested.
-/
namespace RepoAtlas

namespace Text

/-- Whether a character is a hexadecimal digit as digests show it. -/
def IsHexDigit (c : Char) : Prop :=
  ∃ n < 16, c = Nat.digitChar n

theorem isHexDigit_of_mem_toDigits {n : Nat} {c : Char} (hmem : c ∈ Nat.toDigits 16 n) :
    IsHexDigit c := by
  induction n using Nat.strongRecOn with
  | ind n ih =>
      rw [Nat.toDigits_eq_if (by decide)] at hmem
      split at hmem
      · next hlt => exact ⟨n, hlt, List.mem_singleton.mp hmem⟩
      · rcases List.mem_append.mp hmem with hmem | hmem
        · exact ih (n / 16) (by omega) hmem
        · exact ⟨n % 16, Nat.mod_lt n (by decide), List.mem_singleton.mp hmem⟩

theorem isHexDigit_of_mem_hexText {width n : Nat} {c : Char} (hmem : c ∈ hexText width n) :
    IsHexDigit c := by
  rcases List.mem_append.mp hmem with hmem | hmem
  · exact ⟨0, by decide, List.eq_of_mem_replicate hmem⟩
  · exact isHexDigit_of_mem_toDigits hmem

/-- A number that is not too long is shown with exactly the width asked for. -/
theorem length_hexText {width n : Nat} (hwidth : 0 < width) (hn : n < 16 ^ width) :
    (hexText width n).length = width := by
  have hlength := (Nat.length_toDigits_le_iff (by decide) hwidth).mpr hn
  simp only [hexText, List.length_append, List.length_replicate]
  omega

end Text

namespace Sha256

theorem length_digest (message : List UInt8) : (digest message).length = 32 := by
  simp [digest, bigEndian]

theorem isHexDigit_of_mem_hexDigest {text : String} {c : Char}
    (hmem : c ∈ (hexDigest text).toList) : Text.IsHexDigit c := by
  rw [hexDigest, String.toList_ofList] at hmem
  obtain ⟨b, -, hc⟩ := List.mem_flatMap.mp hmem
  exact Text.isHexDigit_of_mem_hexText hc

theorem length_hexDigest (text : String) : (hexDigest text).toList.length = 64 := by
  have hpair (b : UInt8) : (Text.hexText 2 b.toNat).length = 2 :=
    Text.length_hexText (by decide) b.toNat_lt
  rw [hexDigest, String.toList_ofList, List.length_flatMap]
  simp only [hpair, List.map_const', length_digest]
  rfl

end Sha256

end RepoAtlas
