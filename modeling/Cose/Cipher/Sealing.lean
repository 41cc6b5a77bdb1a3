import Cose.Cipher.Ccm
import Cose.Cipher.Gcm

/-!
# Ciphers that seal

An authenticated mode with the lengths, in bytes, that it is made for. It seals and opens texts over any block
cipher, and where it refuses it gives no reason.
-/

set_option autoImplicit false

namespace Cose

inductive Direction where
  | sealing | opening
  deriving DecidableEq, Repr

/-- Tags of chained blocks are cut from one block. -/
inductive SealingCipher where
  | gcm (keyLength : Nat)
  | ccm (keyLength tagLength nonceLength : Nat) (short : tagLength ≤ 16)
  deriving DecidableEq

namespace SealingCipher

def keyLength : SealingCipher → Nat
  | gcm keyLength => keyLength
  | ccm keyLength _ _ _ => keyLength

def tagLength : SealingCipher → Nat
  | gcm _ => 16
  | ccm _ tagLength _ _ => tagLength

def seal? (s : SealingCipher) (c : BlockCipher) (nonce aad plain : Bytes) : Option Bytes :=
  match s with
  | gcm _ => some (Gcm.encrypt c nonce aad plain)
  | ccm _ tagLength _ _ => Ccm.encrypt? c tagLength nonce aad plain

def open? (s : SealingCipher) (c : BlockCipher) (nonce aad sealed : Bytes) : Option Bytes :=
  match s with
  | gcm _ => Gcm.decrypt? c nonce aad sealed
  | ccm _ tagLength _ _ => Ccm.decrypt? c tagLength nonce aad sealed

def run? (s : SealingCipher) : Direction → BlockCipher → Bytes → Bytes → Bytes → Option Bytes
  | .sealing => s.seal?
  | .opening => s.open?

end SealingCipher

end Cose
