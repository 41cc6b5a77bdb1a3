import Mathlib.Data.LawfulXor.Basic
import Mathlib.Data.List.Basic
import Cose.Cipher.KeyWrap

/-!
# Key wrap undone

A pass and its inverse undo each other under any cipher whose decryption and encryption do, with the same
running numbers, and so do six passes. So the wrapped form of a key is unwrapped to that key, and nothing is
unwrapped but wrapped forms: words that end in another check word than the initial one are no image of a key.
-/

set_option autoImplicit false

namespace Cose

structure BlockCipher.Invertible (c : BlockCipher) : Prop where
  decrypt_encrypt : ∀ b, c.decrypt (c.encrypt b) = b
  encrypt_decrypt : ∀ b, c.encrypt (c.decrypt b) = b

namespace KeyWrap

section

variable (c : BlockCipher)

theorem length_pass (t check : UInt64) (ws : List UInt64) : (pass c t check ws).2.length = ws.length := by
  induction ws generalizing t check with
  | nil => rfl
  | cons r rs ih => simp [pass, ih]

theorem length_passes (n : UInt64) (count : Nat) (t : UInt64) (s : UInt64 × List UInt64) :
    (passes c n count t s).2.length = s.2.length := by
  induction count generalizing t s with
  | zero => rfl
  | succ count ih => rw [passes, ih, length_pass]

theorem length_invPass (t check : UInt64) (ws : List UInt64) :
    (invPass c t check ws).2.length = ws.length := by
  induction ws generalizing t check with
  | nil => rfl
  | cons r rs ih => simp [invPass, ih]

theorem length_invPasses (n : UInt64) (count : Nat) (t : UInt64) (s : UInt64 × List UInt64) :
    (invPasses c n count t s).2.length = s.2.length := by
  induction count generalizing t s with
  | zero => rfl
  | succ count ih => rw [invPasses, length_invPass, ih]

variable {c} (invertible : c.Invertible)
include invertible

theorem invPass_pass (t check : UInt64) (ws : List UInt64) :
    invPass c t (pass c t check ws).1 (pass c t check ws).2 = (check, ws) := by
  induction ws generalizing t check with
  | nil => rfl
  | cons r rs ih => rw [pass, invPass, ih, xor_cancel_right, invertible.decrypt_encrypt]

theorem pass_invPass (t check : UInt64) (ws : List UInt64) :
    pass c t (invPass c t check ws).1 (invPass c t check ws).2 = (check, ws) := by
  induction ws generalizing t check with
  | nil => rfl
  | cons r rs ih => rw [invPass, pass, invertible.encrypt_decrypt, xor_cancel_right, ih]

theorem invPasses_passes (n : UInt64) (count : Nat) (t : UInt64) (s : UInt64 × List UInt64) :
    invPasses c n count t (passes c n count t s) = s := by
  induction count generalizing t s with
  | zero => rfl
  | succ count ih => rw [passes, invPasses, ih, invPass_pass invertible]

theorem passes_invPasses (n : UInt64) (count : Nat) (t : UInt64) (s : UInt64 × List UInt64) :
    passes c n count t (invPasses c n count t s) = s := by
  induction count generalizing t s with
  | zero => rfl
  | succ count ih => rw [invPasses, passes, pass_invPass invertible, ih]

end

/-! Words and their bytes. -/

theorem wordOfBytes_wordBytes (w : UInt64) : Block.wordOfBytes (Block.wordBytes w) = w := by
  have bound := w.toNat_lt
  apply UInt64.toNat_inj.mp
  simp [Block.wordOfBytes, Block.wordBytes, Nat.shiftRight_eq_div_pow]
  omega

theorem wordBytes_wordOfBytes {bs : Bytes} (length : bs.length = 8) :
    Block.wordBytes (Block.wordOfBytes bs) = bs := by
  match bs, length with
  | [b0, b1, b2, b3, b4, b5, b6, b7], _ =>
    have h0 := b0.toNat_lt
    have h1 := b1.toNat_lt
    have h2 := b2.toNat_lt
    have h3 := b3.toNat_lt
    have h4 := b4.toNat_lt
    have h5 := b5.toNat_lt
    have h6 := b6.toNat_lt
    have h7 := b7.toNat_lt
    simp only [Block.wordBytes, Block.wordOfBytes, List.cons.injEq, ← UInt8.toNat_inj]
    simp [Nat.shiftRight_eq_div_pow]
    omega

theorem bytesOf_cons (w : UInt64) (ws : List UInt64) :
    bytesOf (w :: ws) = Block.wordBytes w ++ bytesOf ws := rfl

theorem length_bytesOf (ws : List UInt64) : (bytesOf ws).length = 8 * ws.length := by
  induction ws with
  | nil => rfl
  | cons w ws ih =>
    rw [bytesOf_cons, List.length_append, ih, Block.length_wordBytes, List.length_cons]
    omega

theorem length_pieces (size count : Nat) (bs : Bytes) : (Bytes.pieces size count bs).length = count := by
  induction count generalizing bs with
  | zero => rfl
  | succ count ih => rw [Bytes.pieces, List.length_cons, ih]

theorem length_wordsOf (bs : Bytes) : (wordsOf bs).length = (bs.length + 7) / 8 := by
  rw [wordsOf, List.length_map, Bytes.chunks, length_pieces]
  rfl

theorem wordsOf_bytesOf (ws : List UInt64) : wordsOf (bytesOf ws) = ws := by
  have cut : Bytes.pieces 8 ws.length (bytesOf ws) = ws.map Block.wordBytes := by
    induction ws with
    | nil => rfl
    | cons w ws ih =>
      rw [bytesOf_cons, List.length_cons, Bytes.pieces, List.map_cons,
        List.take_left' (Block.length_wordBytes w), List.drop_left' (Block.length_wordBytes w), ih]
  have count : ((bytesOf ws).length + 8 - 1) / 8 = ws.length := by
    rw [length_bytesOf]
    omega
  rw [wordsOf, Bytes.chunks, count, cut, List.map_map]
  simp [Function.comp_def, wordOfBytes_wordBytes]

theorem bytesOf_wordsOf {bs : Bytes} (whole : 8 ∣ bs.length) : bytesOf (wordsOf bs) = bs := by
  have joined (n : Nat) (bs : Bytes) (length : bs.length = 8 * n) :
      bytesOf ((Bytes.pieces 8 n bs).map Block.wordOfBytes) = bs := by
    induction n generalizing bs with
    | zero =>
      obtain rfl := List.eq_nil_of_length_eq_zero length
      rfl
    | succ n ih =>
      rw [Bytes.pieces, List.map_cons, bytesOf_cons, ih (bs.drop 8) (by rw [List.length_drop]; omega),
        wordBytes_wordOfBytes (by rw [List.length_take]; omega), List.take_append_drop]
  obtain ⟨n, length⟩ := whole
  have count : (bs.length + 8 - 1) / 8 = n := by omega
  rw [wordsOf, Bytes.chunks, count]
  exact joined n bs length

/-! Keys and their wrapped forms. -/

section

variable (c : BlockCipher)

theorem length_wrap {key : Bytes} (whole : 8 ∣ key.length) : (wrap c key).length = key.length + 8 := by
  rw [wrap, length_bytesOf, List.length_cons, length_passes, length_wordsOf]
  omega

theorem unwrap?_eq_some {key wrapped : Bytes} (accepted : unwrap? c wrapped = some key) :
    ∃ check ws, wordsOf wrapped = check :: ws ∧
      invPasses c (UInt64.ofNat ws.length) 6 1 (check, ws) = (initialCheck, wordsOf key) ∧
      8 ∣ key.length := by
  rw [unwrap?] at accepted
  cases words : wordsOf wrapped with
  | nil => simp [words] at accepted
  | cons check ws =>
    simp only [words, Option.ite_none_right_eq_some, Option.some.injEq] at accepted
    obtain ⟨initial, rfl⟩ := accepted
    refine ⟨check, ws, rfl, ?_, ?_⟩
    · rw [wordsOf_bytesOf, ← initial]
    · rw [length_bytesOf]
      exact Nat.dvd_mul_right 8 _

variable {c} (invertible : c.Invertible)
include invertible

theorem unwrap?_wrap {key : Bytes} (whole : 8 ∣ key.length) : unwrap? c (wrap c key) = some key := by
  have undone := invPasses_passes invertible (UInt64.ofNat (wordsOf key).length) 6 1 (initialCheck, wordsOf key)
  rw [wrap, unwrap?, wordsOf_bytesOf]
  simp only [length_passes, undone, if_true, bytesOf_wordsOf whole]

theorem wrap_of_unwrap? {key wrapped : Bytes} (whole : 8 ∣ wrapped.length)
    (accepted : unwrap? c wrapped = some key) : wrap c key = wrapped := by
  obtain ⟨check, ws, words, undone, -⟩ := unwrap?_eq_some c accepted
  -- wrapping runs the passes over as many words, so with the same running numbers
  have same : (wordsOf key).length = ws.length := by
    have length := length_invPasses c (UInt64.ofNat ws.length) 6 1 (check, ws)
    rwa [undone] at length
  have redone := passes_invPasses invertible (UInt64.ofNat ws.length) 6 1 (check, ws)
  rw [undone] at redone
  calc
    wrap c key = bytesOf (check :: ws) := by simp only [wrap, same, redone]
    _ = wrapped := by rw [← words, bytesOf_wordsOf whole]

end

end KeyWrap

end Cose
