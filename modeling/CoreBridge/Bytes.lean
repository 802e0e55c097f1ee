/-!
# Byte strings

Everything that crosses the boundary is a list of bytes. This module fixes the
two readings of such a list that the rest of the library uses: a number,
most significant byte first, and text in UTF-8.
-/
namespace CoreBridge

abbrev Bytes := List UInt8

namespace Bytes

/-- The last `width` base-256 digits of `n`, most significant first. -/
def ofNat : (width n : Nat) → Bytes
  | 0, _ => []
  | width + 1, n => ofNat width (n / 256) ++ [UInt8.ofNat n]

@[simp] theorem length_ofNat (width n : Nat) : (ofNat width n).length = width := by
  induction width generalizing n with
  | zero => rfl
  | succ width ih => simp [ofNat, ih]

/-- The number whose base-256 digits are `bytes`, most significant first. -/
def toNat (bytes : Bytes) : Nat :=
  bytes.foldl (fun n byte => 256 * n + byte.toNat) 0

theorem toNat_append_singleton (bytes : Bytes) (byte : UInt8) :
    toNat (bytes ++ [byte]) = 256 * toNat bytes + byte.toNat := by
  simp [toNat]

theorem ofNat_toNat (bytes : Bytes) : ofNat bytes.length bytes.toNat = bytes := by
  induction h : bytes.length generalizing bytes with
  | zero => simp [List.length_eq_zero_iff.1 h, ofNat]
  | succ width ih =>
    have hne : bytes ≠ [] := by rintro rfl; simp at h
    obtain ⟨front, last, rfl⟩ : ∃ front last, bytes = front ++ [last] :=
      ⟨_, _, (List.dropLast_concat_getLast hne).symm⟩
    have hlast := last.toNat_lt
    have hquot : (256 * toNat front + last.toNat) / 256 = toNat front := by omega
    have hlow : UInt8.ofNat (256 * toNat front + last.toNat) = last := by
      apply UInt8.toNat_inj.1
      simp
    rw [ofNat, toNat_append_singleton, hquot, hlow, ih front (by simpa using h)]

/-- The text that `bytes` spell in UTF-8, if they spell one. -/
def toText? (bytes : Bytes) : Option String :=
  String.fromUTF8? ⟨bytes.toArray⟩

/-- The UTF-8 spelling of `text`. -/
def ofText (text : String) : Bytes :=
  text.toUTF8.data.toList

@[simp] theorem toText?_ofText (text : String) : toText? (ofText text) = some text := by
  simp only [toText?, ofText, Array.toArray_toList, String.toUTF8_eq_toByteArray]
  unfold String.fromUTF8?
  rw [dif_pos text.isValidUTF8]
  rfl

theorem ofText_injective {text other : String} (h : ofText text = ofText other) : text = other := by
  have ht := toText?_ofText text
  rw [h, toText?_ofText] at ht
  exact (Option.some.inj ht).symm

theorem ofText_of_toText? {bytes : Bytes} {text : String} (h : toText? bytes = some text) :
    ofText text = bytes := by
  simp only [toText?, String.fromUTF8?] at h
  split at h
  · cases h
    simp [ofText, String.toUTF8, String.fromUTF8]
  · cases h

end Bytes
end CoreBridge
