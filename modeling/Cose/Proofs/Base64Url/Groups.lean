import Cose.Base64Url
import Cose.Proofs.Bytes

/-!
# Groups of six bits

Three bytes and four groups of six bits are one number of 24 bits, written in two bases. Each of them is found from
the other, and a byte string that does not fill its last four groups ends as if zero bytes stood behind it.
-/

set_option autoImplicit false

namespace Cose

namespace Base64Url

theorem toNat_shiftRight {x k : UInt8} (h : k.toNat < 8) : (x >>> k).toNat = x.toNat / 2 ^ k.toNat := by
  rw [UInt8.toNat_shiftRight, Nat.mod_eq_of_lt h, Nat.shiftRight_eq_div_pow]

theorem toNat_shiftLeft {x k : UInt8} (h : k.toNat < 8) : (x <<< k).toNat = 2 ^ k.toNat * x.toNat % 256 := by
  rw [UInt8.toNat_shiftLeft, Nat.mod_eq_of_lt h, Nat.shiftLeft_eq, Nat.mul_comm]

theorem toNat_shiftLeft_or {x y k : UInt8} (h : k.toNat < 8) (low : y.toNat < 2 ^ k.toNat) :
    (x <<< k ||| y).toNat = 2 ^ k.toNat * x.toNat % 256 + y.toNat := by
  have whole : 256 = 2 ^ k.toNat * 2 ^ (8 - k.toNat) := by
    rw [← Nat.pow_add, Nat.add_sub_of_le (Nat.le_of_lt h)]
  rw [UInt8.toNat_or, toNat_shiftLeft h, whole, Nat.mul_mod_mul_left, Nat.two_pow_add_eq_or_of_lt low]

theorem toNat_mask {x mask : UInt8} (k : Nat) (h : mask.toNat = 2 ^ k - 1) :
    (x &&& mask).toNat = x.toNat % 2 ^ k := by
  rw [UInt8.toNat_and, h, Nat.and_two_pow_sub_one_eq_mod]

/-- Three bytes and four groups of six bits with the same 24 bits. -/
structure Grouped (a b c p q r s : UInt8) : Prop where
  number : 65536 * a.toNat + 256 * b.toNat + c.toNat =
    262144 * p.toNat + 4096 * q.toNat + 64 * r.toNat + s.toNat
  small : p.toNat < 64 ∧ q.toNat < 64 ∧ r.toNat < 64 ∧ s.toNat < 64

theorem grouped_digits (a b c : UInt8) :
    Grouped a b c (a >>> 2) ((a &&& 3) <<< 4 ||| b >>> 4) ((b &&& 15) <<< 2 ||| c >>> 6) (c &&& 63) := by
  have ha := a.toNat_lt
  have hb := b.toNat_lt
  have hc := c.toNat_lt
  have high_a : (a >>> 2).toNat = a.toNat / 4 := toNat_shiftRight (by decide)
  have high_b : (b >>> 4).toNat = b.toNat / 16 := toNat_shiftRight (by decide)
  have high_c : (c >>> 6).toNat = c.toNat / 64 := toNat_shiftRight (by decide)
  have low_a : (a &&& 3).toNat = a.toNat % 4 := toNat_mask 2 rfl
  have low_b : (b &&& 15).toNat = b.toNat % 16 := toNat_mask 4 rfl
  have low_c : (c &&& 63).toNat = c.toNat % 64 := toNat_mask 6 rfl
  have second : ((a &&& 3) <<< 4 ||| b >>> 4).toNat = 16 * (a &&& 3).toNat % 256 + (b >>> 4).toNat :=
    toNat_shiftLeft_or (by decide) (show _ < 16 by omega)
  have third : ((b &&& 15) <<< 2 ||| c >>> 6).toNat = 4 * (b &&& 15).toNat % 256 + (c >>> 6).toNat :=
    toNat_shiftLeft_or (by decide) (show _ < 4 by omega)
  constructor <;> omega

theorem grouped_bytes {p q r s : UInt8} (hp : p < 64) (hq : q < 64) (hr : r < 64) (hs : s < 64) :
    Grouped (p <<< 2 ||| q >>> 4) (q <<< 4 ||| r >>> 2) (r <<< 6 ||| s) p q r s := by
  have hp : p.toNat < 64 := UInt8.lt_iff_toNat_lt.mp hp
  have hq : q.toNat < 64 := UInt8.lt_iff_toNat_lt.mp hq
  have hr : r.toNat < 64 := UInt8.lt_iff_toNat_lt.mp hr
  have hs : s.toNat < 64 := UInt8.lt_iff_toNat_lt.mp hs
  have high_q : (q >>> 4).toNat = q.toNat / 16 := toNat_shiftRight (by decide)
  have high_r : (r >>> 2).toNat = r.toNat / 4 := toNat_shiftRight (by decide)
  have first : (p <<< 2 ||| q >>> 4).toNat = 4 * p.toNat % 256 + (q >>> 4).toNat :=
    toNat_shiftLeft_or (by decide) (show _ < 4 by omega)
  have second : (q <<< 4 ||| r >>> 2).toNat = 16 * q.toNat % 256 + (r >>> 2).toNat :=
    toNat_shiftLeft_or (by decide) (show _ < 16 by omega)
  have third : (r <<< 6 ||| s).toNat = 64 * r.toNat % 256 + s.toNat :=
    toNat_shiftLeft_or (by decide) hs
  constructor <;> omega

namespace Grouped

variable {a b c p q r s : UInt8}

theorem digits_eq (grouped : Grouped a b c p q r s) : a >>> 2 = p ∧ (a &&& 3) <<< 4 ||| b >>> 4 = q ∧
    (b &&& 15) <<< 2 ||| c >>> 6 = r ∧ c &&& 63 = s := by
  have same := grouped_digits a b c
  have := grouped.number
  have := grouped.small
  have := same.number
  have := same.small
  simp only [← UInt8.toNat_inj]
  omega

theorem bytes_eq (grouped : Grouped a b c p q r s) : p <<< 2 ||| q >>> 4 = a ∧ q <<< 4 ||| r >>> 2 = b ∧
    r <<< 6 ||| s = c := by
  obtain ⟨hp, hq, hr, hs⟩ := grouped.small
  have same := grouped_bytes (UInt8.lt_iff_toNat_lt.mpr hp) (UInt8.lt_iff_toNat_lt.mpr hq)
    (UInt8.lt_iff_toNat_lt.mpr hr) (UInt8.lt_iff_toNat_lt.mpr hs)
  have := grouped.number
  have := same.number
  have := a.toNat_lt
  have := b.toNat_lt
  have := c.toNat_lt
  have := (p <<< 2 ||| q >>> 4).toNat_lt
  have := (q <<< 4 ||| r >>> 2).toNat_lt
  have := (r <<< 6 ||| s).toNat_lt
  simp only [← UInt8.toNat_inj]
  omega

end Grouped

/-! The last bytes are grouped as if zero bytes stood behind them. -/

theorem digits_one (a : UInt8) : digits [a] = [a >>> 2, (a &&& 3) <<< 4 ||| (0 : UInt8) >>> 4] := by simp [digits]

theorem digits_two (a b : UInt8) :
    digits [a, b] = [a >>> 2, (a &&& 3) <<< 4 ||| b >>> 4, (b &&& 15) <<< 2 ||| (0 : UInt8) >>> 6] := by
  simp [digits]

/-- Without a third and a fourth group, the bits of the second one that belong to no byte are zero exactly if the
bytes behind the first one are. -/
theorem Grouped.unused_of_two {a b c p q : UInt8} (grouped : Grouped a b c p q 0 0) :
    q &&& 15 = 0 ↔ b = 0 ∧ c = 0 := by
  have number := grouped.number
  have low : (q &&& 15).toNat = q.toNat % 16 := toNat_mask 4 rfl
  have hb := b.toNat_lt
  have hc := c.toNat_lt
  simp only [← UInt8.toNat_inj, UInt8.toNat_zero] at number ⊢
  omega

theorem Grouped.unused_of_three {a b c p q r : UInt8} (grouped : Grouped a b c p q r 0) :
    r &&& 3 = 0 ↔ c = 0 := by
  have number := grouped.number
  have low : (r &&& 3).toNat = r.toNat % 4 := toNat_mask 2 rfl
  have hc := c.toNat_lt
  simp only [← UInt8.toNat_inj, UInt8.toNat_zero] at number ⊢
  omega

theorem digits_lt (bs : Bytes) : ∀ d ∈ digits bs, d < 64 := by
  induction bs using digits.induct with
  | case1 => simp [digits]
  | case2 a =>
    have small := (grouped_digits a 0 0).small
    simp only [digits_one, List.forall_mem_cons, UInt8.lt_iff_toNat_lt]
    exact ⟨small.1, small.2.1, by simp⟩
  | case3 a b =>
    have small := (grouped_digits a b 0).small
    simp only [digits_two, List.forall_mem_cons, UInt8.lt_iff_toNat_lt]
    exact ⟨small.1, small.2.1, small.2.2.1, by simp⟩
  | case4 a b c rest ih =>
    have small := (grouped_digits a b c).small
    simp only [digits, List.forall_mem_cons, UInt8.lt_iff_toNat_lt]
    exact ⟨small.1, small.2.1, small.2.2.1, small.2.2.2, fun d hd => UInt8.lt_iff_toNat_lt.mp (ih d hd)⟩

theorem length_digits_mod (bs : Bytes) : (digits bs).length % 4 ≠ 1 := by
  induction bs using digits.induct with
  | case4 a b c rest ih =>
    simp only [digits, List.length_cons]
    omega
  | _ => simp [digits]

theorem ofDigits?_digits (bs : Bytes) : ofDigits? (digits bs) = some bs := by
  induction bs using digits.induct with
  | case1 => rfl
  | case2 a =>
    have grouped := grouped_digits a 0 0
    have unused := grouped.unused_of_two.mpr ⟨rfl, rfl⟩
    rw [digits_one, ofDigits?, if_pos unused, grouped.bytes_eq.1]
  | case3 a b =>
    have grouped := grouped_digits a b 0
    have unused := grouped.unused_of_three.mpr rfl
    rw [digits_two, ofDigits?, if_pos unused, grouped.bytes_eq.1, grouped.bytes_eq.2.1]
  | case4 a b c rest ih =>
    have bytes := (grouped_digits a b c).bytes_eq
    rw [digits, ofDigits?, ih, bytes.1, bytes.2.1, bytes.2.2]
    rfl

theorem digits_of_ofDigits? {ds : List UInt8} (small : ∀ d ∈ ds, d < 64) {bs : Bytes}
    (read : ofDigits? ds = some bs) : digits bs = ds := by
  have zero_small : (0 : UInt8) < 64 := by decide
  induction ds using ofDigits?.induct generalizing bs with
  | case1 =>
    obtain rfl := Option.some.inj read
    rfl
  | case2 p => simp [ofDigits?] at read
  | case3 p q unused =>
    rw [ofDigits?, if_pos unused] at read
    obtain rfl := Option.some.inj read
    have grouped := grouped_bytes (small p (by simp)) (small q (by simp)) zero_small zero_small
    have same := grouped.digits_eq
    rw [(grouped.unused_of_two.mp unused).1] at same
    rw [digits_one, same.1, same.2.1]
  | case4 p q used => simp [ofDigits?, used] at read
  | case5 p q r unused =>
    rw [ofDigits?, if_pos unused] at read
    obtain rfl := Option.some.inj read
    have grouped := grouped_bytes (small p (by simp)) (small q (by simp)) (small r (by simp)) zero_small
    have same := grouped.digits_eq
    rw [grouped.unused_of_three.mp unused] at same
    rw [digits_two, same.1, same.2.1, same.2.2.1]
  | case6 p q r used => simp [ofDigits?, used] at read
  | case7 p q r s rest ih =>
    rw [ofDigits?] at read
    obtain ⟨bs, later, rfl⟩ := Option.map_eq_some_iff.mp read
    have grouped := grouped_bytes (small p (by simp)) (small q (by simp)) (small r (by simp)) (small s (by simp))
    have same := grouped.digits_eq
    rw [digits, same.1, same.2.1, same.2.2.1, same.2.2.2, ih (fun d hd => small d (by simp [hd])) later]

theorem ofDigits?_eq_some_iff {ds : List UInt8} (small : ∀ d ∈ ds, d < 64) (bs : Bytes) :
    ofDigits? ds = some bs ↔ ds = digits bs := by
  constructor
  · intro read
    exact (digits_of_ofDigits? small read).symm
  · rintro rfl
    exact ofDigits?_digits bs

end Base64Url

end Cose
