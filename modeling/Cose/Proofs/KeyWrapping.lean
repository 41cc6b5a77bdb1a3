import Cose.KeyWrapping
import Cose.Proofs.Cipher.Aes
import Cose.Proofs.Cipher.KeyWrap
import Cose.Proofs.Result

/-!
# Wrapping and its inverse

Unwrapping accepts exactly what wrapping makes, and both refuse a key or a wrapped key by its length alone. Of
the algorithm only the length of the key encryption key matters.
-/

set_option autoImplicit false

namespace Cose

open Result

theorem Aes.cipher_invertible (key : Bytes) : (Aes.cipher key).Invertible :=
  ⟨decryptWith_encryptWith (roundKeys key), encryptWith_decryptWith (roundKeys key)⟩

namespace KeyWrapping

/-- Keys are wrapped from two words on. -/
def Wrappable (key : Bytes) : Prop := 16 ≤ key.length ∧ 8 ∣ key.length

def Unwrappable (wrapped : Bytes) : Prop := 24 ≤ wrapped.length ∧ 8 ∣ wrapped.length

theorem not_wrappable_iff (key : Bytes) : ¬ Wrappable key ↔ key.length < 16 ∨ key.length % 8 ≠ 0 := by
  rw [Wrappable]
  omega

theorem not_unwrappable_iff (wrapped : Bytes) :
    ¬ Unwrappable wrapped ↔ wrapped.length < 24 ∨ wrapped.length % 8 ≠ 0 := by
  rw [Unwrappable]
  omega

theorem not_direct {alg : Algorithm} {n : Nat} (named : alg.kekLength? = some n) : alg.isDirect = false := by
  cases alg <;> first | rfl | simp [Algorithm.kekLength?] at named

section

variable {alg : Algorithm} {n : Nat} {kek : Bytes}

theorem checkKek_of_length (named : alg.kekLength? = some n) (length : kek.length = n) :
    checkKek alg kek = .ok () := by
  simp [checkKek, named, length]

/-! With a key of the algorithm's length neither direction mentions the algorithm. -/

theorem wrap_of_length (named : alg.kekLength? = some n) (length : kek.length = n) (key : Bytes) :
    wrap alg kek key = if key.length < 16 ∨ key.length % 8 ≠ 0 then
      .error (.invalidKeyParameter (.plainKeyLength key.length))
    else .ok (KeyWrap.wrap (Aes.cipher kek) key) := by
  rw [wrap, not_direct named, checkKek_of_length named length]
  rfl

theorem unwrap_of_length (named : alg.kekLength? = some n) (length : kek.length = n) (wrapped : Bytes) :
    unwrap alg kek wrapped = if wrapped.length < 24 ∨ wrapped.length % 8 ≠ 0 then
      .error (.invalidKeyParameter (.wrappedKeyLength wrapped.length))
    else match KeyWrap.unwrap? (Aes.cipher kek) wrapped with
      | some key => .ok key
      | none => .error .authenticationFailed := by
  rw [unwrap, not_direct named, checkKek_of_length named length]
  rfl

theorem wrap_eq_ok_iff (named : alg.kekLength? = some n) (length : kek.length = n) (key wrapped : Bytes) :
    wrap alg kek key = .ok wrapped ↔ Wrappable key ∧ KeyWrap.wrap (Aes.cipher kek) key = wrapped := by
  rw [wrap_of_length named length, ← not_not (a := Wrappable key), not_wrappable_iff]
  by_cases refused : key.length < 16 ∨ key.length % 8 ≠ 0 <;> simp [refused]

theorem unwrap_eq_ok_iff (named : alg.kekLength? = some n) (length : kek.length = n) (wrapped key : Bytes) :
    unwrap alg kek wrapped = .ok key ↔
      Unwrappable wrapped ∧ KeyWrap.unwrap? (Aes.cipher kek) wrapped = some key := by
  rw [unwrap_of_length named length, ← not_not (a := Unwrappable wrapped), not_unwrappable_iff]
  by_cases refused : wrapped.length < 24 ∨ wrapped.length % 8 ≠ 0
  · simp [refused]
  · cases KeyWrap.unwrap? (Aes.cipher kek) wrapped <;> simp [refused]

theorem wrap_refused_iff (named : alg.kekLength? = some n) (length : kek.length = n) (key : Bytes) :
    (∃ cause, wrap alg kek key = .error (.invalidKeyParameter cause)) ↔ ¬ Wrappable key := by
  rw [wrap_of_length named length, not_wrappable_iff]
  by_cases refused : key.length < 16 ∨ key.length % 8 ≠ 0 <;> simp [refused]

theorem unwrap_refused_iff (named : alg.kekLength? = some n) (length : kek.length = n) (wrapped : Bytes) :
    (∃ cause, unwrap alg kek wrapped = .error (.invalidKeyParameter cause)) ↔ ¬ Unwrappable wrapped := by
  rw [unwrap_of_length named length, not_unwrappable_iff]
  by_cases refused : wrapped.length < 24 ∨ wrapped.length % 8 ≠ 0
  · simp [refused]
  · cases KeyWrap.unwrap? (Aes.cipher kek) wrapped <;> simp [refused]

theorem unwrap_failed_iff (named : alg.kekLength? = some n) (length : kek.length = n) (wrapped : Bytes) :
    unwrap alg kek wrapped = .error .authenticationFailed ↔
      Unwrappable wrapped ∧ KeyWrap.unwrap? (Aes.cipher kek) wrapped = none := by
  rw [unwrap_of_length named length, ← not_not (a := Unwrappable wrapped), not_unwrappable_iff]
  by_cases refused : wrapped.length < 24 ∨ wrapped.length % 8 ≠ 0
  · simp [refused]
  · cases KeyWrap.unwrap? (Aes.cipher kek) wrapped <;> simp [refused]

theorem wrap_eq_ok_iff_unwrap (named : alg.kekLength? = some n) (length : kek.length = n)
    (key wrapped : Bytes) : wrap alg kek key = .ok wrapped ↔ unwrap alg kek wrapped = .ok key := by
  have invertible := Aes.cipher_invertible kek
  rw [wrap_eq_ok_iff named length, unwrap_eq_ok_iff named length]
  constructor
  · rintro ⟨⟨long, whole⟩, rfl⟩
    refine ⟨?_, KeyWrap.unwrap?_wrap invertible whole⟩
    rw [Unwrappable, KeyWrap.length_wrap _ whole]
    omega
  · rintro ⟨⟨long, whole⟩, accepted⟩
    obtain ⟨-, -, -, -, key_whole⟩ := KeyWrap.unwrap?_eq_some _ accepted
    obtain rfl := KeyWrap.wrap_of_unwrap? invertible whole accepted
    rw [KeyWrap.length_wrap _ key_whole] at long
    exact ⟨⟨by omega, key_whole⟩, rfl⟩

end

/-- Unwrapping is the exact inverse of wrapping. With a key encryption key of the algorithm's length a key is
wrapped to a string exactly if that string is unwrapped to it; wrapping succeeds from two words on and adds one.
A string of at least three words that wraps no key fails to authenticate, every other length is an invalid
parameter, and algorithms with key encryption keys of one length do the same. -/
theorem wrap_iff_unwrap (alg : Algorithm) (n : Nat) (named : alg.kekLength? = some n) (kek : Bytes)
    (length : kek.length = n) :
    (∀ key wrapped, wrap alg kek key = .ok wrapped ↔ unwrap alg kek wrapped = .ok key) ∧
    (∀ key, (∃ wrapped, wrap alg kek key = .ok wrapped) ↔ 16 ≤ key.length ∧ 8 ∣ key.length) ∧
    (∀ key wrapped, wrap alg kek key = .ok wrapped → wrapped.length = key.length + 8) ∧
    (∀ key, (∃ cause, wrap alg kek key = .error (.invalidKeyParameter cause)) ↔
      ¬ (16 ≤ key.length ∧ 8 ∣ key.length)) ∧
    (∀ wrapped, unwrap alg kek wrapped = .error .authenticationFailed ↔
      (24 ≤ wrapped.length ∧ 8 ∣ wrapped.length) ∧ ¬ ∃ key, wrap alg kek key = .ok wrapped) ∧
    (∀ wrapped, (∃ cause, unwrap alg kek wrapped = .error (.invalidKeyParameter cause)) ↔
      ¬ (24 ≤ wrapped.length ∧ 8 ∣ wrapped.length)) ∧
    (∀ other, Algorithm.kekLength? other = some n → ∀ bs,
      wrap other kek bs = wrap alg kek bs ∧ unwrap other kek bs = unwrap alg kek bs) := by
  have inverse := wrap_eq_ok_iff_unwrap named length
  refine ⟨inverse, ?_, ?_, wrap_refused_iff named length, ?_, unwrap_refused_iff named length, ?_⟩
  · intro key
    simp [wrap_eq_ok_iff named length, Wrappable]
  · intro key wrapped done
    obtain ⟨⟨-, whole⟩, rfl⟩ := (wrap_eq_ok_iff named length key wrapped).mp done
    exact KeyWrap.length_wrap _ whole
  · intro wrapped
    rw [unwrap_failed_iff named length]
    apply and_congr_right
    intro unwrappable
    simp [inverse, unwrap_eq_ok_iff named length, unwrappable, Option.eq_none_iff_forall_ne_some]
  · intro other other_named bs
    rw [wrap_of_length other_named length, wrap_of_length named length, unwrap_of_length other_named length,
      unwrap_of_length named length]
    exact ⟨rfl, rfl⟩

theorem wrap_iff_unwrap_two_words :
    (∃ wrapped, wrap .ecdhEsA128kw (Bytes.zeros 16) (Bytes.zeros 16) = .ok wrapped ∧ wrapped.length = 24 ∧
      unwrap .ecdhEsA128kw (Bytes.zeros 16) wrapped = .ok (Bytes.zeros 16) ∧
      unwrap .a128kw (Bytes.zeros 16) wrapped = .ok (Bytes.zeros 16)) ∧
    (∃ cause, wrap .ecdhEsA128kw (Bytes.zeros 16) (Bytes.zeros 20) = .error (.invalidKeyParameter cause)) := by
  obtain ⟨inverse, succeeds, longer, refused, -, -, same⟩ :=
    wrap_iff_unwrap .ecdhEsA128kw 16 rfl (Bytes.zeros 16) (Bytes.length_zeros 16)
  constructor
  · obtain ⟨wrapped, done⟩ := (succeeds (Bytes.zeros 16)).mpr (by rw [Bytes.length_zeros]; decide)
    have undone := (inverse _ _).mp done
    refine ⟨wrapped, done, ?_, undone, ?_⟩
    · rw [longer _ _ done, Bytes.length_zeros]
    · rw [(same .a128kw rfl wrapped).2, undone]
  · exact (refused (Bytes.zeros 20)).mpr (by rw [Bytes.length_zeros]; decide)

end KeyWrapping

end Cose
