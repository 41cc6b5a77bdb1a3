import Mathlib.Data.Fintype.EquivFin
import Mathlib.Data.LawfulXor.Basic
import Cose.Cipher.Aes
import Cose.Proofs.Bytes

/-!
# AES undone

Every step of a round has an inverse: bytes are substituted back by the second table, rows are moved back, a key
added twice is gone, and the column map has order four because doubling is additive. So decryption and
encryption under the same round keys undo each other, whatever the round keys are.
-/

set_option autoImplicit false

namespace Cose

namespace Aes

/-! The substitution. -/

theorem invSub_sub (b : UInt8) : invSub (sub b) = b :=
  forall_byte (p := fun b => invSub (sub b) = b) (by decide +kernel) b

/-- There are only finitely many bytes, so what is undone on one side is undone on both. -/
theorem sub_invSub (b : UInt8) : sub (invSub b) = b := by
  have finite : Finite UInt8 := Finite.of_injective UInt8.toFin (fun _ _ => UInt8.toFin_inj.mp)
  have injective : Function.Injective sub := Function.LeftInverse.injective invSub_sub
  have surjective : Function.Surjective sub := Finite.surjective_of_injective injective
  exact Function.LeftInverse.rightInverse_of_surjective invSub_sub surjective b

/-! The column map. -/

theorem double_eq_shifts (b : UInt8) : double b =
    b <<< 1 ^^^ b >>> 7 ^^^ b >>> 7 <<< 1 ^^^ b >>> 7 <<< 3 ^^^ b >>> 7 <<< 4 :=
  forall_byte (p := fun b => double b =
    b <<< 1 ^^^ b >>> 7 ^^^ b >>> 7 <<< 1 ^^^ b >>> 7 <<< 3 ^^^ b >>> 7 <<< 4) (by decide +kernel) b

theorem double_xor (a b : UInt8) : double (a ^^^ b) = double a ^^^ double b := by
  simp only [double_eq_shifts, UInt8.shiftRight_xor, UInt8.shiftLeft_xor]
  ac_rfl

theorem xor_left_comm (a b c : UInt8) : a ^^^ (b ^^^ c) = b ^^^ (a ^^^ c) := by
  rw [← UInt8.xor_assoc, UInt8.xor_comm a b, UInt8.xor_assoc]

namespace Column

def sum (c : Column) : UInt8 := c.b0 ^^^ c.b1 ^^^ c.b2 ^^^ c.b3

theorem map_inverse {f g : UInt8 → UInt8} (inverse : ∀ b, f (g b) = b) (c : Column) :
    (c.map g).map f = c := by
  rw [map, map, inverse, inverse, inverse, inverse]

theorem xor_xor (c k : Column) : c ^^^ k ^^^ k = c := by
  change mk (c.b0 ^^^ k.b0 ^^^ k.b0) (c.b1 ^^^ k.b1 ^^^ k.b1) (c.b2 ^^^ k.b2 ^^^ k.b2)
    (c.b3 ^^^ k.b3 ^^^ k.b3) = c
  rw [xor_cancel_right, xor_cancel_right, xor_cancel_right, xor_cancel_right]

theorem toWord_ofWord (w : UInt32) : (ofWord w).toWord = w := by
  have bound := w.toNat_lt
  apply UInt32.toNat_inj.mp
  simp [toWord, ofWord, Nat.shiftRight_eq_div_pow]
  omega

theorem ofWord_toWord (c : Column) : ofWord c.toWord = c := by
  obtain ⟨b0, b1, b2, b3⟩ := c
  have h0 := b0.toNat_lt
  have h1 := b1.toNat_lt
  have h2 := b2.toNat_lt
  have h3 := b3.toNat_lt
  simp only [toWord, ofWord, mk.injEq, ← UInt8.toNat_inj]
  simp [Nat.shiftRight_eq_div_pow]
  omega

end Column

/-- In the sum of a mixed column every doubled byte occurs twice, and the sum itself four times. -/
theorem sum_mix (c : Column) : (mix c).sum = c.sum := by
  change c.b0 ^^^ c.sum ^^^ double (c.b0 ^^^ c.b1) ^^^ (c.b1 ^^^ c.sum ^^^ double (c.b1 ^^^ c.b2)) ^^^
    (c.b2 ^^^ c.sum ^^^ double (c.b2 ^^^ c.b3)) ^^^ (c.b3 ^^^ c.sum ^^^ double (c.b3 ^^^ c.b0)) =
    c.b0 ^^^ c.b1 ^^^ c.b2 ^^^ c.b3
  simp [double_xor, UInt8.xor_assoc, UInt8.xor_comm, xor_left_comm]

theorem mix_row (x y z sum : UInt8) :
    x ^^^ sum ^^^ double (x ^^^ y) ^^^ sum ^^^
      double (x ^^^ sum ^^^ double (x ^^^ y) ^^^ (y ^^^ sum ^^^ double (y ^^^ z))) =
    x ^^^ double (double (x ^^^ z)) := by
  simp [double_xor, UInt8.xor_assoc, UInt8.xor_comm, xor_left_comm]

theorem mix_mix (c : Column) : mix (mix c) = mixTwice c := by
  have unfolded : mix (mix c) = ⟨(mix c).b0 ^^^ (mix c).sum ^^^ double ((mix c).b0 ^^^ (mix c).b1),
      (mix c).b1 ^^^ (mix c).sum ^^^ double ((mix c).b1 ^^^ (mix c).b2),
      (mix c).b2 ^^^ (mix c).sum ^^^ double ((mix c).b2 ^^^ (mix c).b3),
      (mix c).b3 ^^^ (mix c).sum ^^^ double ((mix c).b3 ^^^ (mix c).b0)⟩ := rfl
  rw [unfolded, sum_mix, mixTwice, Column.mk.injEq]
  refine ⟨?_, ?_, ?_, ?_⟩
  · exact mix_row c.b0 c.b1 c.b2 c.sum
  · exact mix_row c.b1 c.b2 c.b3 c.sum
  · rw [UInt8.xor_comm c.b0 c.b2]
    exact mix_row c.b2 c.b3 c.b0 c.sum
  · rw [UInt8.xor_comm c.b1 c.b3]
    exact mix_row c.b3 c.b0 c.b1 c.sum

theorem mixTwice_mixTwice (c : Column) : mixTwice (mixTwice c) = c := by
  have same (a b e : UInt8) : a ^^^ e ^^^ (b ^^^ e) = a ^^^ b := by
    simp [UInt8.xor_comm, xor_left_comm]
  simp only [mixTwice, same, xor_cancel_right]

theorem invMix_mix (c : Column) : invMix (mix c) = c := by
  calc
    invMix (mix c) = mix (mix (mix (mix c))) := by rw [invMix, mix_mix (mix c)]
    _ = mixTwice (mixTwice c) := by rw [mix_mix, mix_mix]
    _ = c := mixTwice_mixTwice c

theorem mix_invMix (c : Column) : mix (invMix c) = c := by
  rw [invMix, mix_mix, mixTwice_mixTwice]

/-! States and their rounds. -/

namespace State

theorem map_inverse {f g : Column → Column} (inverse : ∀ c, f (g c) = c) (s : State) :
    (s.map g).map f = s := by
  rw [map, map, inverse, inverse, inverse, inverse]

theorem xor_xor (s k : State) : s ^^^ k ^^^ k = s := by
  change mk (s.c0 ^^^ k.c0 ^^^ k.c0) (s.c1 ^^^ k.c1 ^^^ k.c1) (s.c2 ^^^ k.c2 ^^^ k.c2)
    (s.c3 ^^^ k.c3 ^^^ k.c3) = s
  rw [Column.xor_xor, Column.xor_xor, Column.xor_xor, Column.xor_xor]

theorem invShiftRows_shiftRows (s : State) : s.shiftRows.invShiftRows = s := rfl

theorem shiftRows_invShiftRows (s : State) : s.invShiftRows.shiftRows = s := rfl

theorem toBlock_ofBlock (b : Block) : (ofBlock b).toBlock = b := by
  obtain ⟨hi, lo⟩ := b
  have word (w : UInt64) : (4294967296 : UInt64) * (w >>> 32).toUInt32.toUInt64 + w.toUInt32.toUInt64 = w := by
    have bound := w.toNat_lt
    apply UInt64.toNat_inj.mp
    simp [Nat.shiftRight_eq_div_pow]
    omega
  rw [ofBlock, toBlock]
  simp only [Column.toWord_ofWord, word]

theorem ofBlock_toBlock (s : State) : ofBlock s.toBlock = s := by
  have high (u v : UInt32) : ((4294967296 * u.toUInt64 + v.toUInt64) >>> 32).toUInt32 = u := by
    have hu := u.toNat_lt
    have hv := v.toNat_lt
    apply UInt32.toNat_inj.mp
    simp [Nat.shiftRight_eq_div_pow]
    omega
  have low (u v : UInt32) : (4294967296 * u.toUInt64 + v.toUInt64).toUInt32 = v := by
    apply UInt32.toNat_inj.mp
    simp
  rw [toBlock, ofBlock]
  simp only [high, low, Column.ofWord_toWord]

end State

theorem invRounds_rounds (ks : List State) (s : State) : invRounds ks (rounds ks s) = s := by
  have unsubstituted (s : State) : (s.map (·.map sub)).map (·.map invSub) = s :=
    State.map_inverse (Column.map_inverse invSub_sub) s
  fun_induction rounds ks s with
  | case1 s => rfl
  | case2 k s => rw [invRounds, State.xor_xor, State.invShiftRows_shiftRows, unsubstituted]
  | case3 k ks s more ih =>
    rw [invRounds, ih, State.xor_xor, State.map_inverse invMix_mix, State.invShiftRows_shiftRows,
      unsubstituted]
    exact more

theorem rounds_invRounds (ks : List State) (s : State) : rounds ks (invRounds ks s) = s := by
  have substituted (s : State) : (s.map (·.map invSub)).map (·.map sub) = s :=
    State.map_inverse (Column.map_inverse sub_invSub) s
  fun_induction invRounds ks s with
  | case1 s => rfl
  | case2 k s => rw [rounds, substituted, State.shiftRows_invShiftRows, State.xor_xor]
  | case3 k ks s more ih =>
    rw [rounds, substituted, State.shiftRows_invShiftRows, State.map_inverse mix_invMix, State.xor_xor, ih]
    exact more

theorem decryptWith_encryptWith (ks : List State) (b : Block) : decryptWith ks (encryptWith ks b) = b := by
  cases ks with
  | nil => rfl
  | cons k ks =>
    rw [encryptWith, decryptWith, State.ofBlock_toBlock, invRounds_rounds, State.xor_xor, State.toBlock_ofBlock]

theorem encryptWith_decryptWith (ks : List State) (b : Block) : encryptWith ks (decryptWith ks b) = b := by
  cases ks with
  | nil => rfl
  | cons k ks =>
    rw [decryptWith, encryptWith, State.ofBlock_toBlock, State.xor_xor, rounds_invRounds, State.toBlock_ofBlock]

end Aes

end Cose
