import Mathlib.Logic.Basic
import Cose.Encryption
import Cose.Proofs.Cipher.CounterMode
import Cose.Proofs.Result

/-!
# Encryption and its inverse

Encrypting and decrypting run the cipher of the algorithm in its two directions, under AES with the given key. So
decryption gives back what was encrypted and accepts nothing else, as it does over any block cipher, and the only
text that cannot be encrypted is one that is too long for the length field that a nonce of thirteen bytes leaves.
-/

set_option autoImplicit false

namespace Cose

open Result

def EncryptionParameters.Overlong (p : EncryptionParameters) (plain : Bytes) : Prop :=
  p.mode = .ccm ∧ p.nonceLength = 13 ∧ 65535 < plain.length

theorem Algorithm.sealing?_nonce {alg : Algorithm} {keyLength tagLength nonceLength : Nat} {short : tagLength ≤ 16}
    (known : alg.sealing? = some (.ccm keyLength tagLength nonceLength short)) :
    nonceLength = 13 ∨ nonceLength = 7 := by
  cases alg <;> simp [Algorithm.sealing?] at known <;> omega

namespace Encryption

/-- Key and nonce have the lengths of the algorithm, which encrypts. -/
structure Suits (alg : Algorithm) (key nonce : Bytes) (p : EncryptionParameters) : Prop where
  listed : alg.encryption? = some p
  key : key.length = p.keyLength
  nonce : nonce.length = p.nonceLength

section

variable {alg : Algorithm} {key nonce : Bytes} {p : EncryptionParameters}

theorem Suits.cipher (suits : Suits alg key nonce p) :
    ∃ s, alg.sealing? = some s ∧ Suits alg key nonce s.parameters ∧ p = s.parameters := by
  have listed := suits.listed
  rw [alg.encryption?_eq] at listed
  obtain ⟨s, known, rfl⟩ := Option.map_eq_some_iff.mp listed
  exact ⟨s, known, suits, rfl⟩

theorem lookup_eq_ok (listed : alg.encryption? = some p) : lookup alg = .ok p := by
  rw [lookup, listed]

section

variable {s : SealingCipher} (known : alg.sealing? = some s) (suits : Suits alg key nonce s.parameters)

include known suits

theorem run_of_suits (dir : Direction) (aad text : Bytes) : run alg s.parameters dir key nonce aad text =
    match s.run? dir (Aes.cipher key) nonce aad text with
    | some out => .ok out
    | none => .error .cipher := by
  have sized : key.length = s.keyLength := suits.key.trans s.keyLength_parameters
  rw [run, if_neg (not_not_intro suits.key), if_neg (not_not_intro suits.nonce), known]
  -- the cipher looks at the length of the key once more
  exact if_neg (not_not_intro sized)

theorem encrypt_eq (aad plain : Bytes) : encrypt alg key nonce aad plain =
    match s.seal? (Aes.cipher key) nonce aad plain with
    | some sealed => .ok sealed
    | none => .error (.unsupportedEncryption (.textTooLong alg)) := by
  rw [encrypt, lookup_eq_ok suits.listed, ok_bind, run_of_suits known suits, SealingCipher.run?]
  cases s.seal? (Aes.cipher key) nonce aad plain <;> rfl

theorem decrypt_eq (aad sealed : Bytes) : decrypt alg key nonce aad sealed =
    match s.open? (Aes.cipher key) nonce aad sealed with
    | some plain => .ok plain
    | none => .error .authenticationFailed := by
  rw [decrypt, lookup_eq_ok suits.listed, ok_bind, run_of_suits known suits, SealingCipher.run?]
  cases s.open? (Aes.cipher key) nonce aad sealed <;> rfl

theorem encrypt_eq_ok_iff (aad plain sealed : Bytes) : encrypt alg key nonce aad plain = .ok sealed ↔
    s.seal? (Aes.cipher key) nonce aad plain = some sealed := by
  rw [encrypt_eq known suits]
  cases s.seal? (Aes.cipher key) nonce aad plain <;> simp

theorem decrypt_eq_ok_iff (aad sealed plain : Bytes) : decrypt alg key nonce aad sealed = .ok plain ↔
    s.open? (Aes.cipher key) nonce aad sealed = some plain := by
  rw [decrypt_eq known suits]
  cases s.open? (Aes.cipher key) nonce aad sealed <;> simp

theorem encrypt_eq_error_iff (aad plain : Bytes) :
    encrypt alg key nonce aad plain = .error (.unsupportedEncryption (.textTooLong alg)) ↔
      ¬ ∃ sealed, encrypt alg key nonce aad plain = .ok sealed := by
  rw [encrypt_eq known suits]
  cases s.seal? (Aes.cipher key) nonce aad plain <;> simp

theorem decrypt_eq_error_iff (aad sealed : Bytes) :
    decrypt alg key nonce aad sealed = .error .authenticationFailed ↔
      ¬ ∃ plain, decrypt alg key nonce aad sealed = .ok plain := by
  rw [decrypt_eq known suits]
  cases s.open? (Aes.cipher key) nonce aad sealed <;> simp

/-- Two bytes hold the lengths up to 65535, eight bytes all lengths that are asked about. -/
theorem exists_encrypt_iff (aad : Bytes) {plain : Bytes} (bound : plain.length < 2 ^ 32) :
    (∃ sealed, encrypt alg key nonce aad plain = .ok sealed) ↔ ¬ s.parameters.Overlong plain := by
  simp only [encrypt_eq_ok_iff known suits, SealingCipher.exists_seal?_iff]
  cases s with
  | gcm keyLength => simp [SealingCipher.Fits, EncryptionParameters.Overlong, SealingCipher.parameters]
  | ccm keyLength tagLength nonceLength short =>
    have sized : nonce.length = nonceLength := suits.nonce
    rw [SealingCipher.Fits, Ccm.fits, Ccm.lengthSize, sized, decide_eq_true_iff, EncryptionParameters.Overlong,
      SealingCipher.parameters]
    rcases Algorithm.sealing?_nonce known with rfl | rfl
    · simp
      omega
    · simp
      omega

end

theorem refused_of_length (alg : Algorithm)
    (wrong : key.length ≠ p.keyLength ∨ nonce.length ≠ p.nonceLength) :
    ∃ cause, ∀ dir aad text, run alg p dir key nonce aad text = .error (.parameters cause) := by
  by_cases long : key.length = p.keyLength
  · have foreign := wrong.resolve_left (not_not_intro long)
    exact ⟨.nonceLength alg p.nonceLength nonce.length, fun dir aad text => by simp [run, long, foreign]⟩
  · exact ⟨.keyLength alg p.keyLength key.length, fun dir aad text => by simp [run, long]⟩

end

/-- Decryption is the exact inverse of encryption. With key and nonce of the algorithm's lengths a plaintext is
encrypted to a ciphertext exactly if that ciphertext is decrypted to it, the ciphertext is longer by the tag,
every ciphertext of no plaintext fails to authenticate, and only a text of more than 65535 bytes under a nonce
of thirteen bytes is refused. Other lengths are invalid parameters and other algorithms unsupported, in both
directions. -/
theorem encrypt_iff_decrypt (alg : Algorithm) (key nonce aad : Bytes) :
    (∀ p, Suits alg key nonce p →
      (∀ plain sealed, encrypt alg key nonce aad plain = .ok sealed ↔
        decrypt alg key nonce aad sealed = .ok plain) ∧
      (∀ plain sealed, encrypt alg key nonce aad plain = .ok sealed →
        sealed.length = plain.length + p.tagLength) ∧
      (∀ plain, plain.length < 2 ^ 32 →
        ((∃ sealed, encrypt alg key nonce aad plain = .ok sealed) ↔ ¬ p.Overlong plain) ∧
        (encrypt alg key nonce aad plain = .error (.unsupportedEncryption (.textTooLong alg)) ↔
          p.Overlong plain)) ∧
      (∀ sealed, decrypt alg key nonce aad sealed = .error .authenticationFailed ↔
        ¬ ∃ plain, encrypt alg key nonce aad plain = .ok sealed)) ∧
    (∀ p, alg.encryption? = some p → key.length ≠ p.keyLength ∨ nonce.length ≠ p.nonceLength →
      ∃ cause, ∀ text, encrypt alg key nonce aad text = .error (.invalidKeyParameter cause) ∧
        decrypt alg key nonce aad text = .error (.invalidKeyParameter cause)) ∧
    (alg.encryption? = none →
      ∀ text, encrypt alg key nonce aad text = .error (.unsupportedEncryption (.algorithm alg)) ∧
        decrypt alg key nonce aad text = .error (.unsupportedEncryption (.algorithm alg))) := by
  refine ⟨fun p suits => ?_, fun p listed wrong => ?_, fun unlisted text => ?_⟩
  · obtain ⟨s, known, suits, rfl⟩ := suits.cipher
    have inverse (plain sealed : Bytes) : encrypt alg key nonce aad plain = .ok sealed ↔
        decrypt alg key nonce aad sealed = .ok plain := by
      rw [encrypt_eq_ok_iff known suits, decrypt_eq_ok_iff known suits]
      exact (s.open?_eq_some_iff (Aes.cipher key) nonce aad sealed plain).symm
    refine ⟨inverse, fun plain sealed done => ?_, fun plain bound => ⟨?_, ?_⟩, fun sealed => ?_⟩
    · rw [s.tagLength_parameters]
      exact s.length_seal? _ nonce aad ((encrypt_eq_ok_iff known suits aad plain sealed).mp done)
    · exact exists_encrypt_iff known suits aad bound
    · rw [encrypt_eq_error_iff known suits, exists_encrypt_iff known suits aad bound, not_not]
    · simp only [inverse]
      exact decrypt_eq_error_iff known suits aad sealed
  · obtain ⟨cause, stopped⟩ := refused_of_length alg wrong
    refine ⟨cause, fun text => ?_⟩
    rw [encrypt, decrypt, lookup_eq_ok listed, ok_bind, ok_bind, stopped, stopped]
    exact ⟨rfl, rfl⟩
  · rw [encrypt, decrypt, lookup, unlisted]
    exact ⟨rfl, rfl⟩

/-- The tag of the empty text under a zero key, texts at the bound of a nonce of thirteen bytes, a key that is
too short and an algorithm that does not encrypt. -/
theorem encrypt_iff_decrypt_at_bounds :
    decrypt .a128gcm (Bytes.zeros 16) (Bytes.zeros 12) [] [0x58, 0xe2, 0xfc, 0xce, 0xfa, 0x7e, 0x30, 0x61,
      0x36, 0x7f, 0x1d, 0x57, 0xa4, 0xe7, 0x45, 0x5a] = .ok [] ∧
    (∃ sealed, encrypt .aesCcm16_64_256 (Bytes.zeros 32) (Bytes.zeros 13) [7] (Bytes.zeros 65535) =
      .ok sealed) ∧
    encrypt .aesCcm16_64_256 (Bytes.zeros 32) (Bytes.zeros 13) [7] (Bytes.zeros 65536) =
      .error (.unsupportedEncryption (.textTooLong .aesCcm16_64_256)) ∧
    (∃ cause, decrypt .aesCcm16_64_256 (Bytes.zeros 31) (Bytes.zeros 13) [] [1] =
      .error (.invalidKeyParameter cause)) ∧
    encrypt .es256 [] [] [] [1] = .error (.unsupportedEncryption (.algorithm .es256)) := by
  have gcm : Suits .a128gcm (Bytes.zeros 16) (Bytes.zeros 12) ⟨.gcm, 16, 16, 12⟩ :=
    ⟨rfl, Bytes.length_zeros 16, Bytes.length_zeros 12⟩
  have ccm : Suits .aesCcm16_64_256 (Bytes.zeros 32) (Bytes.zeros 13) ⟨.ccm, 32, 8, 13⟩ :=
    ⟨rfl, Bytes.length_zeros 32, Bytes.length_zeros 13⟩
  have bounds := ((encrypt_iff_decrypt .aesCcm16_64_256 _ _ [7]).1 _ ccm).2.2.1
  refine ⟨?_, ?_, ?_, ?_, ?_⟩
  · apply (((encrypt_iff_decrypt .a128gcm _ _ []).1 _ gcm).1 [] _).mp
    decide +kernel
  · apply (bounds (Bytes.zeros 65535) (by rw [Bytes.length_zeros]; decide)).1.mpr
    simp [EncryptionParameters.Overlong]
  · apply (bounds (Bytes.zeros 65536) (by rw [Bytes.length_zeros]; decide)).2.mpr
    simp [EncryptionParameters.Overlong]
  · obtain ⟨cause, refused⟩ := (encrypt_iff_decrypt .aesCcm16_64_256 (Bytes.zeros 31) (Bytes.zeros 13) []).2.1
      ⟨.ccm, 32, 8, 13⟩ rfl (Or.inl (by simp))
    exact ⟨cause, (refused [1]).2⟩
  · exact ((encrypt_iff_decrypt .es256 [] [] []).2.2 rfl [1]).1

end Encryption

end Cose
