import Cose.Encryption
import Cose.Proofs.Cipher.CounterMode

/-!
# Nonces that do not collide

A partial IV is filled up with zero bytes on the left and added to the base IV. So its own leading zero bytes do
not count. Everything else does: another partial IV under the same base IV gives another nonce, and so does
another base IV with the same partial IV.
-/

set_option autoImplicit false

namespace Cose

namespace Bytes

/-- The bytes from the first one that is not zero. -/
def significant (bs : Bytes) : Bytes := bs.dropWhile (· == 0)

theorem length_padLeft {width : Nat} {bs : Bytes} (fits : bs.length ≤ width) :
    (padLeft width bs).length = width := by
  rw [padLeft, List.length_append, length_zeros]
  omega

theorem significant_zeros_append (n : Nat) (bs : Bytes) : significant (zeros n ++ bs) = significant bs := by
  induction n with
  | zero => rfl
  | succ n ih =>
    rw [zeros, List.replicate_succ, List.cons_append, significant, List.dropWhile_cons_of_pos rfl]
    exact ih

theorem padLeft_zero_cons {width : Nat} {bs : Bytes} (fits : bs.length < width) :
    padLeft width (0 :: bs) = padLeft width bs := by
  have filled : width - bs.length = width - (0 :: bs).length + 1 := by
    rw [List.length_cons]
    omega
  rw [padLeft, padLeft, filled, zeros, zeros, List.replicate_succ', List.append_assoc, List.singleton_append]

theorem padLeft_significant {width : Nat} {bs : Bytes} (fits : bs.length ≤ width) :
    padLeft width (significant bs) = padLeft width bs := by
  induction bs with
  | nil => rfl
  | cons b bs ih =>
    by_cases leading : b = 0
    · subst leading
      have short : bs.length < width := fits
      rw [significant, List.dropWhile_cons_of_pos rfl, padLeft_zero_cons short]
      exact ih (Nat.le_of_lt short)
    · rw [significant, List.dropWhile_cons_of_neg]
      simpa using leading

theorem padLeft_eq_iff {width : Nat} {a b : Bytes} (fits : a.length ≤ width) (fits' : b.length ≤ width) :
    padLeft width a = padLeft width b ↔ significant a = significant b := by
  constructor
  · intro same
    calc
      significant a = significant (padLeft width a) := (significant_zeros_append _ a).symm
      _ = significant (padLeft width b) := by rw [same]
      _ = significant b := significant_zeros_append _ b
  · intro same
    rw [← padLeft_significant fits, same, padLeft_significant fits']

theorem xor_comm (a b : Bytes) : xor a b = xor b a := List.zipWith_comm_of_comm UInt8.xor_comm

theorem xor_right_inj {a b c : Bytes} (first : b.length = a.length) (second : c.length = a.length) :
    xor a b = xor a c ↔ b = c := by
  constructor
  · intro same
    rw [xor_comm a b, xor_comm a c] at same
    calc
      b = xor (xor b a) a := (xor_xor b a (Nat.le_of_eq first)).symm
      _ = xor (xor c a) a := by rw [same]
      _ = c := xor_xor c a (Nat.le_of_eq second)
  · rintro rfl
    rfl

end Bytes

namespace Encryption

theorem nonce_eq_ok_iff (baseIv partialIv : Bytes) (length : Nat) (made : Bytes) :
    nonce baseIv partialIv length = .ok made ↔ baseIv.length = length ∧ partialIv.length ≤ length ∧
      Bytes.xor baseIv (Bytes.padLeft length partialIv) = made := by
  rw [nonce]
  by_cases base : baseIv.length = length
  · by_cases fits : partialIv.length ≤ length
    · simp [base, fits, Nat.not_lt.mpr fits]
    · simp [base, fits, Nat.lt_of_not_le fits]
  · simp [base]

section

variable {length : Nat} {baseIv partialIv made : Bytes}

theorem length_nonce (h : nonce baseIv partialIv length = .ok made) : made.length = length := by
  obtain ⟨base, fits, rfl⟩ := (nonce_eq_ok_iff _ _ _ _).mp h
  rw [Bytes.length_xor, base, Bytes.length_padLeft fits, Nat.min_self]

theorem nonce_nonce (h : nonce baseIv partialIv length = .ok made) :
    nonce made partialIv length = .ok baseIv := by
  have sized := length_nonce h
  obtain ⟨base, fits, rfl⟩ := (nonce_eq_ok_iff _ _ _ _).mp h
  have padded := (Bytes.length_padLeft fits).trans base.symm
  exact (nonce_eq_ok_iff _ _ _ _).mpr ⟨sized, fits, Bytes.xor_xor _ _ (Nat.le_of_eq padded.symm)⟩

theorem nonce_eq_iff_partialIv {other made' : Bytes} (h : nonce baseIv partialIv length = .ok made)
    (h' : nonce baseIv other length = .ok made') :
    made = made' ↔ Bytes.significant partialIv = Bytes.significant other := by
  obtain ⟨base, fits, rfl⟩ := (nonce_eq_ok_iff _ _ _ _).mp h
  obtain ⟨-, fits', rfl⟩ := (nonce_eq_ok_iff _ _ _ _).mp h'
  have padded := (Bytes.length_padLeft fits).trans base.symm
  have padded' := (Bytes.length_padLeft fits').trans base.symm
  rw [Bytes.xor_right_inj padded padded', Bytes.padLeft_eq_iff fits fits']

theorem nonce_eq_iff_baseIv {other made' : Bytes} (h : nonce baseIv partialIv length = .ok made)
    (h' : nonce other partialIv length = .ok made') : made = made' ↔ baseIv = other := by
  constructor
  · rintro rfl
    exact Except.ok.inj ((nonce_nonce h).symm.trans (nonce_nonce h'))
  · rintro rfl
    exact Except.ok.inj (h.symm.trans h')

end

/-- A nonce is made exactly of a base IV of its length and a partial IV that is no longer, and it has that
length. Under one base IV, partial IVs make the same nonce exactly if they differ in leading zero bytes only;
with one partial IV, base IVs make the same nonce only if they are equal. The partial IV leads from the nonce
back to the base IV. -/
theorem nonces_distinct (length : Nat) :
    (∀ baseIv partialIv, (∃ made, nonce baseIv partialIv length = .ok made) ↔
      baseIv.length = length ∧ partialIv.length ≤ length) ∧
    (∀ baseIv partialIv made, nonce baseIv partialIv length = .ok made →
      made.length = length ∧ nonce made partialIv length = .ok baseIv) ∧
    (∀ baseIv partialIv partialIv' made made', nonce baseIv partialIv length = .ok made →
      nonce baseIv partialIv' length = .ok made' →
      (made = made' ↔ Bytes.significant partialIv = Bytes.significant partialIv')) ∧
    (∀ baseIv baseIv' partialIv made made', nonce baseIv partialIv length = .ok made →
      nonce baseIv' partialIv length = .ok made' → (made = made' ↔ baseIv = baseIv')) := by
  refine ⟨?_, ?_, ?_, ?_⟩
  · intro baseIv partialIv
    simp only [nonce_eq_ok_iff]
    constructor
    · rintro ⟨made, base, fits, -⟩
      exact ⟨base, fits⟩
    · rintro ⟨base, fits⟩
      exact ⟨_, base, fits, rfl⟩
  · intro baseIv partialIv made h
    exact ⟨length_nonce h, nonce_nonce h⟩
  · intro baseIv partialIv partialIv' made made' h h'
    exact nonce_eq_iff_partialIv h h'
  · intro baseIv baseIv' partialIv made made' h h'
    exact nonce_eq_iff_baseIv h h'

theorem nonces_distinct_three_bytes :
    (∃ made, nonce [1, 2, 3] [0, 9] 3 = .ok made) ∧
    nonce [1, 2, 10] [0, 9] 3 = .ok [1, 2, 3] ∧
    (nonce [1, 2, 3] [0, 9] 3 = nonce [1, 2, 3] [9] 3 ∧ nonce [1, 2, 3] [9] 3 ≠ nonce [1, 2, 3] [9, 0] 3) ∧
    nonce [1, 2, 3] [9] 3 ≠ nonce [1, 2, 4] [9] 3 := by
  obtain ⟨succeeds, back, partials, bases⟩ := nonces_distinct 3
  have padded : nonce [1, 2, 3] [0, 9] 3 = .ok [1, 2, 10] := by decide
  have single : nonce [1, 2, 3] [9] 3 = .ok [1, 2, 10] := by decide
  have shifted : nonce [1, 2, 3] [9, 0] 3 = .ok [1, 11, 3] := by decide
  have other : nonce [1, 2, 4] [9] 3 = .ok [1, 2, 13] := by decide
  refine ⟨(succeeds [1, 2, 3] [0, 9]).mpr (by decide), (back _ _ _ padded).2, ⟨?_, ?_⟩, ?_⟩
  · rw [padded, single, (partials _ _ _ _ _ padded single).mpr (by decide)]
  · intro same
    have equal := Except.ok.inj (single.symm.trans (same.trans shifted))
    exact absurd ((partials _ _ _ _ _ single shifted).mp equal) (by decide)
  · intro same
    have equal := Except.ok.inj (single.symm.trans (same.trans other))
    exact absurd ((bases _ _ _ _ _ single other).mp equal) (by decide)

end Encryption

end Cose
