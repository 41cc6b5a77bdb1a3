import Cose.Cipher.Aes
import Cose.Cipher.Sealing
import Cose.Error

/-!
# Content encryption

Each content encryption algorithm fixes a mode of AES and the lengths of key, nonce and tag. They stand in a
table that keys and nonces are checked against, and once more in the cipher that is run after that. A ciphertext
carries its tag at the end, and no plaintext is given out unless the tag is right.
-/

set_option autoImplicit false

namespace Cose

inductive EncryptionMode where
  | gcm | ccm
  deriving DecidableEq, Repr

/-- The parameters of a content encryption algorithm; all lengths are in bytes. -/
structure EncryptionParameters where
  mode : EncryptionMode
  keyLength : Nat
  tagLength : Nat
  nonceLength : Nat
  deriving DecidableEq, Repr

def Algorithm.encryption? : Algorithm → Option EncryptionParameters
  | a128gcm => some ⟨.gcm, 16, 16, 12⟩
  | a192gcm => some ⟨.gcm, 24, 16, 12⟩
  | a256gcm => some ⟨.gcm, 32, 16, 12⟩
  | aesCcm16_64_128 => some ⟨.ccm, 16, 8, 13⟩
  | aesCcm16_64_256 => some ⟨.ccm, 32, 8, 13⟩
  | aesCcm64_64_128 => some ⟨.ccm, 16, 8, 7⟩
  | aesCcm64_64_256 => some ⟨.ccm, 32, 8, 7⟩
  | aesCcm16_128_128 => some ⟨.ccm, 16, 16, 13⟩
  | aesCcm16_128_256 => some ⟨.ccm, 32, 16, 13⟩
  | aesCcm64_128_128 => some ⟨.ccm, 16, 16, 7⟩
  | aesCcm64_128_256 => some ⟨.ccm, 32, 16, 7⟩
  | _ => none

def Algorithm.sealing? : Algorithm → Option SealingCipher
  | a128gcm => some (.gcm 16)
  | a192gcm => some (.gcm 24)
  | a256gcm => some (.gcm 32)
  | aesCcm16_64_128 => some (.ccm 16 8 13 (by decide))
  | aesCcm16_64_256 => some (.ccm 32 8 13 (by decide))
  | aesCcm64_64_128 => some (.ccm 16 8 7 (by decide))
  | aesCcm64_64_256 => some (.ccm 32 8 7 (by decide))
  | aesCcm16_128_128 => some (.ccm 16 16 13 (by decide))
  | aesCcm16_128_256 => some (.ccm 32 16 13 (by decide))
  | aesCcm64_128_128 => some (.ccm 16 16 7 (by decide))
  | aesCcm64_128_256 => some (.ccm 32 16 7 (by decide))
  | _ => none

def SealingCipher.parameters : SealingCipher → EncryptionParameters
  | gcm keyLength => ⟨.gcm, keyLength, 16, 12⟩
  | ccm keyLength tagLength nonceLength _ => ⟨.ccm, keyLength, tagLength, nonceLength⟩

@[simp] theorem SealingCipher.keyLength_parameters (s : SealingCipher) : s.parameters.keyLength = s.keyLength := by
  cases s <;> rfl

@[simp] theorem SealingCipher.tagLength_parameters (s : SealingCipher) : s.parameters.tagLength = s.tagLength := by
  cases s <;> rfl

/-- The ciphers that are run are those of the table, with its lengths. -/
theorem Algorithm.encryption?_eq (alg : Algorithm) :
    alg.encryption? = alg.sealing?.map SealingCipher.parameters := by
  cases alg <;> rfl

namespace Encryption

inductive Refusal where
  | parameters (cause : KeyParameterError)
  | cipher
  deriving DecidableEq

def lookup (alg : Algorithm) : Result EncryptionParameters :=
  match alg.encryption? with
  | some p => .ok p
  | none => .error (.unsupportedEncryption (.algorithm alg))

def apply (s : SealingCipher) (dir : Direction) (key nonce aad text : Bytes) : Except Refusal Bytes :=
  if key.length ≠ s.keyLength then .error (.parameters .cipherKeyLength)
  else
    match s.run? dir (Aes.cipher key) nonce aad text with
    | some out => .ok out
    | none => .error .cipher

def run (alg : Algorithm) (p : EncryptionParameters) (dir : Direction) (key nonce aad text : Bytes) :
    Except Refusal Bytes :=
  if key.length ≠ p.keyLength then .error (.parameters (.keyLength alg p.keyLength key.length))
  else if nonce.length ≠ p.nonceLength then
    .error (.parameters (.nonceLength alg p.nonceLength nonce.length))
  else
    match alg.sealing? with
    | some s => apply s dir key nonce aad text
    | none => .error (.parameters (.notEncryption alg))

def encrypt (alg : Algorithm) (key nonce aad plain : Bytes) : Result Bytes := do
  let p ← lookup alg
  (run alg p .sealing key nonce aad plain).mapError fun
    | .parameters cause => .invalidKeyParameter cause
    | .cipher => .unsupportedEncryption (.textTooLong alg)

def decrypt (alg : Algorithm) (key nonce aad sealed : Bytes) : Result Bytes := do
  let p ← lookup alg
  (run alg p .opening key nonce aad sealed).mapError fun
    | .parameters cause => .invalidKeyParameter cause
    | .cipher => .authenticationFailed

/-- The nonce of one message: the partial IV, left-padded with zero bytes, is added to the base IV. -/
def nonce (baseIv partialIv : Bytes) (length : Nat) : Result Bytes :=
  if baseIv.length ≠ length then .error (.invalidKeyParameter (.baseIvLength length baseIv.length))
  else if length < partialIv.length then
    .error (.invalidKeyParameter (.partialIvLength partialIv.length length))
  else .ok (Bytes.xor baseIv (Bytes.padLeft length partialIv))

end Encryption

end Cose
