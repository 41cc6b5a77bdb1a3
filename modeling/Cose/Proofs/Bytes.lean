import Mathlib.Data.List.Induction
import Cose.Bytes

/-!
# Numbers and texts as bytes

A number that fits a width is read back from its bytes, and bytes are the written form of the number that
they read as. Reading a text accepts exactly the UTF-8 forms of texts.
-/

set_option autoImplicit false

namespace Cose

theorem forall_byte {p : UInt8 → Prop} (h : ∀ n < 256, p (UInt8.ofNat n)) (b : UInt8) : p b := by
  simpa using h b.toNat b.toNat_lt

namespace Bytes

theorem toNat_append_byte (bs : Bytes) (b : UInt8) : toNat (bs ++ [b]) = 256 * toNat bs + b.toNat := by
  simp [toNat]

theorem toNat_ofNat (width n : Nat) (fits : n < 256 ^ width) : toNat (ofNat width n) = n := by
  induction width generalizing n with
  | zero =>
    have : n = 0 := by simpa using fits
    rw [this]
    rfl
  | succ w ih =>
    have high : n / 256 < 256 ^ w := by
      rw [Nat.div_lt_iff_lt_mul (by decide)]
      simpa [Nat.pow_succ] using fits
    rw [ofNat, toNat_append_byte, ih (n / 256) high, UInt8.toNat_ofNat']
    omega

theorem toNat_lt (bs : Bytes) : toNat bs < 256 ^ bs.length := by
  induction bs using List.reverseRecOn with
  | nil => decide
  | append_singleton bs b ih =>
    have hb := b.toNat_lt
    rw [toNat_append_byte, List.length_append, List.length_singleton, Nat.pow_succ]
    omega

theorem ofNat_toNat (bs : Bytes) : ofNat bs.length (toNat bs) = bs := by
  induction bs using List.reverseRecOn with
  | nil => rfl
  | append_singleton bs b ih =>
    have hb := b.toNat_lt
    have high : (256 * toNat bs + b.toNat) / 256 = toNat bs := by omega
    have low : UInt8.ofNat (256 * toNat bs + b.toNat) = b := by
      apply UInt8.toNat_inj.mp
      rw [UInt8.toNat_ofNat']
      omega
    rw [toNat_append_byte, List.length_append, List.length_singleton, ofNat, high, low, ih]

theorem eq_ofNat_iff {width n : Nat} {bs : Bytes} :
    bs = ofNat width n ∧ n < 256 ^ width ↔ bs.length = width ∧ toNat bs = n := by
  constructor
  · rintro ⟨rfl, fits⟩
    exact ⟨length_ofNat width n, toNat_ofNat width n fits⟩
  · rintro ⟨rfl, rfl⟩
    exact ⟨(ofNat_toNat bs).symm, toNat_lt bs⟩

theorem ofText_injective {s t : String} (h : ofText s = ofText t) : s = t := by
  apply String.toByteArray_inj.mp
  apply ByteArray.ext
  exact Array.toList_inj.mp h

theorem toText?_ofText (s : String) : toText? (ofText s) = some s := by
  have whole : (⟨(ofText s).toArray⟩ : ByteArray) = s.toByteArray := by simp [ofText]
  rw [toText?, whole, String.fromUTF8?]
  simp [String.fromUTF8, s.isValidUTF8]

theorem ofText_of_toText? {bs : Bytes} {s : String} (h : toText? bs = some s) : ofText s = bs := by
  rw [toText?, String.fromUTF8?] at h
  split at h
  · rw [← Option.some.inj h]
    simp [ofText, String.fromUTF8]
  · simp at h

theorem toText?_eq_some_iff (bs : Bytes) (s : String) : toText? bs = some s ↔ bs = ofText s := by
  constructor
  · intro h
    exact (ofText_of_toText? h).symm
  · rintro rfl
    exact toText?_ofText s

end Bytes

end Cose
